import LivePage.Path
import LivePage.Proofs.Number.Numeral
import LivePage.Proofs.Text.Blank
import LivePage.Proofs.Text.Cut

/-!
# The grammar of paths

A path is a list of parts with dots between them.  A part is a key, perhaps with
positions in brackets behind it, or such positions alone; blank characters do not count
around a part, nor around the numeral in a bracket.  A text that is not of this form is
refused for the first thing that is wrong with its first bad part.
-/

namespace LivePage.Path

/-! ## Grammar -/

/-- Positions in brackets, one directly behind the other. -/
inductive Positions : List Char → List UInt64 → Prop where
  | nil : Positions [] []
  | cons {inner behind : List Char} {position : UInt64} {positions : List UInt64} :
      Numeral.Names (Text.trim inner) position → Positions behind positions →
      Positions ('[' :: (inner ++ ']' :: behind)) (position :: positions)

/-- A part of a path, with the steps that it stands for. -/
inductive ReadsPart : List Char → List Segment → Prop where
  | key {part key brackets : List Char} {positions : List UInt64} :
      Text.trim part = key ++ brackets → key ≠ [] → '[' ∉ key → Positions brackets positions →
      ReadsPart part (.key (String.ofList key) :: positions.map .index)
  | positions {part : List Char} {positions : List UInt64} :
      Positions (Text.trim part) positions → positions ≠ [] →
      ReadsPart part (positions.map .index)

/-- What is the first thing wrong with a text that should be positions in brackets. -/
inductive FaultyBrackets : List Char → PartFault → Prop where
  | unterminated {inner : List Char} :
      ']' ∉ inner → FaultyBrackets ('[' :: inner) .unterminatedIndex
  | noNumeral {inner behind : List Char} :
      ']' ∉ inner → (∀ position, ¬Numeral.Names (Text.trim inner) position) →
      FaultyBrackets ('[' :: (inner ++ ']' :: behind)) .invalidIndex
  | stray {c : Char} {behind : List Char} :
      c ≠ '[' → FaultyBrackets (c :: behind) .invalidIndex
  | later {inner behind : List Char} {position : UInt64} {fault : PartFault} :
      Numeral.Names (Text.trim inner) position → FaultyBrackets behind fault →
      FaultyBrackets ('[' :: (inner ++ ']' :: behind)) fault

/-- What is wrong with a part of a path: it is blank, or something behind the place where
its first bracket opens. -/
inductive FaultyPart : List Char → PartFault → Prop where
  | blank {part : List Char} : Text.trim part = [] → FaultyPart part .emptySegment
  | brackets {part key behind : List Char} {fault : PartFault} :
      Text.trim part = key ++ '[' :: behind → '[' ∉ key → FaultyBrackets ('[' :: behind) fault →
      FaultyPart part fault

/-- How a text is read: a blank one is empty, one whose parts are all well formed is the
steps of its parts one after the other, and any other has the fault of its first bad part,
which is reported with the trimmed text. -/
inductive Reads (text : String) : Except PathError Path → Prop where
  | blank : text.trimmed = "" → Reads text (.error .empty)
  | path {parts : List (List Char × List Segment)} :
      parts ≠ [] → text.trimmed.toList = ['.'].intercalate (parts.map Prod.fst) →
      (∀ part ∈ parts, '.' ∉ part.1 ∧ ReadsPart part.1 part.2) →
      Reads text (.ok ⟨parts.flatMap Prod.snd⟩)
  | fault {before after : List (List Char)} {part : List Char} {fault : PartFault} :
      text.trimmed ≠ "" → text.trimmed.toList = ['.'].intercalate (before ++ part :: after) →
      (∀ any ∈ before ++ part :: after, '.' ∉ any) →
      (∀ good ∈ before, ∃ segments, ReadsPart good segments) → FaultyPart part fault →
      Reads text (.error (fault text.trimmed))

/-! ## Brackets -/

/-- The numeral in a bracket ends before the bracket closes. -/
theorem not_mem_of_names {inner : List Char} {position : UInt64}
    (hnames : Numeral.Names (Text.trim inner) position) : ']' ∉ inner := by
  intro hmem
  obtain ⟨digits, hcs, -, hdigits, -⟩ := hnames
  have htrim : ']' ∈ Text.trim inner := Text.mem_trim hmem (by decide)
  have hdigit : ']' ∈ digits := by
    rcases hcs with hcs | hcs <;> simpa [hcs] using htrim
  exact absurd (hdigits _ hdigit) (by decide)

theorem parseIndices_unterminated {inner : List Char} (hfree : ']' ∉ inner) :
    parseIndices ('[' :: inner) = .error .unterminatedIndex := by
  rw [parseIndices, if_pos rfl]
  split
  · rfl
  · next hcut => cases (Text.cutAt_eq_none_iff.2 hfree).symm.trans hcut

theorem parseIndices_bracket {inner : List Char} (hfree : ']' ∉ inner) (behind : List Char) :
    parseIndices ('[' :: (inner ++ ']' :: behind)) =
      match Numeral.position? (Text.trim inner) with
      | none => .error .invalidIndex
      | some position => (parseIndices behind).map (.index position :: ·) := by
  rw [parseIndices, if_pos rfl]
  split
  · next hcut => cases (Text.cutAt_append hfree behind).symm.trans hcut
  · next hcut =>
      rw [Text.cutAt_append hfree, Option.some.injEq, Prod.mk.injEq] at hcut
      obtain ⟨rfl, rfl⟩ := hcut
      rfl

theorem parseIndices_stray {c : Char} (hc : c ≠ '[') (behind : List Char) :
    parseIndices (c :: behind) = .error .invalidIndex := by
  rw [parseIndices, if_neg hc]

theorem parseIndices_of_positions {cs : List Char} {positions : List UInt64}
    (hpositions : Positions cs positions) :
    parseIndices cs = .ok (positions.map .index) := by
  induction hpositions with
  | nil => rw [parseIndices, List.map_nil]
  | cons hnames _ ih =>
      have hposition := Numeral.position?_eq_some_iff.2 hnames
      rw [parseIndices_bracket (not_mem_of_names hnames), hposition, ih]
      rfl

theorem parseIndices_of_faulty {cs : List Char} {fault : PartFault}
    (hfaulty : FaultyBrackets cs fault) : parseIndices cs = .error fault := by
  induction hfaulty with
  | unterminated hfree => exact parseIndices_unterminated hfree
  | noNumeral hfree hnone =>
      have hposition := Option.eq_none_iff_forall_ne_some.2 fun position hsome =>
        hnone position (Numeral.position?_eq_some_iff.1 hsome)
      rw [parseIndices_bracket hfree, hposition]
  | stray hc => exact parseIndices_stray hc _
  | later hnames _ ih =>
      have hposition := Numeral.position?_eq_some_iff.2 hnames
      rw [parseIndices_bracket (not_mem_of_names hnames), hposition, ih]
      rfl

theorem positions_or_faulty (cs : List Char) :
    (∃ positions, Positions cs positions) ∨ ∃ fault, FaultyBrackets cs fault := by
  fun_induction parseIndices cs with
  | case1 => exact .inl ⟨[], .nil⟩
  | case2 rest hcut => exact .inr ⟨_, .unterminated (Text.cutAt_eq_none_iff.1 hcut)⟩
  | case3 rest inner behind hcut hnone =>
      rw [Text.cutAt_eq_some hcut]
      refine .inr ⟨_, .noNumeral (Text.not_mem_of_cutAt hcut) fun position hnames => ?_⟩
      cases hnone.symm.trans (Numeral.position?_eq_some_iff.2 hnames)
  | case4 rest inner behind hcut position hposition ih =>
      have hnames := Numeral.position?_eq_some_iff.1 hposition
      rw [Text.cutAt_eq_some hcut]
      rcases ih with ⟨positions, hpositions⟩ | ⟨fault, hfaulty⟩
      · exact .inl ⟨_, .cons hnames hpositions⟩
      · exact .inr ⟨fault, .later hnames hfaulty⟩
  | case5 c rest hc => exact .inr ⟨_, .stray hc⟩

/-- Positions begin with a bracket. -/
theorem Positions.head?_eq {cs : List Char} {positions : List UInt64}
    (hpositions : Positions cs positions) : ∀ c ∈ cs.head?, c = '[' := by
  cases hpositions <;> simp

theorem Positions.eq_nil_iff {cs : List Char} {positions : List UInt64}
    (hpositions : Positions cs positions) : cs = [] ↔ positions = [] := by
  cases hpositions <;> simp

/-! ## Parts -/

/-- A part is read as its key, up to the first bracket, and its positions. -/
theorem parsePart_append {part key brackets : List Char}
    (hpart : Text.trim part = key ++ brackets) (hne : key ++ brackets ≠ []) (hkey : '[' ∉ key)
    (hbrackets : ∀ c ∈ brackets.head?, c = '[') :
    parsePart part = (parseIndices brackets).map
      ((if key = [] then [] else [.key (String.ofList key)]) ++ ·) := by
  have hall : ∀ c ∈ key, decide (c ≠ '[') = true := by
    rintro c hc
    exact decide_eq_true fun heq => hkey (heq ▸ hc)
  have htake : (key ++ brackets).takeWhile (· ≠ '[') = key := by
    rw [List.takeWhile_append_of_pos hall]
    cases brackets with
    | nil => rw [List.takeWhile_nil, List.append_nil]
    | cons c behind =>
        rw [List.takeWhile_cons_of_neg (by simp [hbrackets c rfl]), List.append_nil]
  have hdrop : (key ++ brackets).dropWhile (· ≠ '[') = brackets := by
    rw [List.dropWhile_append_of_pos hall]
    cases brackets with
    | nil => rfl
    | cons c behind => rw [List.dropWhile_cons_of_neg (by simp [hbrackets c rfl])]
  simp only [parsePart]
  rw [hpart, if_neg hne, htake, hdrop]

theorem ReadsPart.trim_ne_nil {part : List Char} {segments : List Segment}
    (hreads : ReadsPart part segments) : Text.trim part ≠ [] := by
  cases hreads with
  | key hpart hne => simp [hpart, hne]
  | positions hpositions hne => exact mt hpositions.eq_nil_iff.1 hne

theorem parsePart_of_reads {part : List Char} {segments : List Segment}
    (hreads : ReadsPart part segments) : parsePart part = .ok segments := by
  cases hreads with
  | key hpart hne hkey hpositions =>
      rw [parsePart_append hpart (by simp [hne]) hkey hpositions.head?_eq, if_neg hne,
        parseIndices_of_positions hpositions]
      rfl
  | positions hpositions hne =>
      rw [parsePart_append (List.nil_append _).symm (mt hpositions.eq_nil_iff.1 hne)
        List.not_mem_nil hpositions.head?_eq, if_pos rfl, parseIndices_of_positions hpositions]
      rfl

theorem parsePart_of_faulty {part : List Char} {fault : PartFault}
    (hfaulty : FaultyPart part fault) : parsePart part = .error fault := by
  cases hfaulty with
  | blank hblank =>
      simp only [parsePart]
      rw [if_pos hblank]
  | brackets hpart hkey hbrackets =>
      rw [parsePart_append hpart (by simp) hkey (by simp), parseIndices_of_faulty hbrackets]
      rfl

theorem reads_or_faulty (part : List Char) :
    (∃ segments, ReadsPart part segments) ∨ ∃ fault, FaultyPart part fault := by
  by_cases hblank : Text.trim part = []
  · exact .inr ⟨_, .blank hblank⟩
  have hpart : Text.trim part =
      (Text.trim part).takeWhile (· ≠ '[') ++ (Text.trim part).dropWhile (· ≠ '[') :=
    List.takeWhile_append_dropWhile.symm
  have hkey : '[' ∉ (Text.trim part).takeWhile (· ≠ '[') := by
    intro hmem
    simpa using List.mem_takeWhile_imp hmem
  rcases positions_or_faulty ((Text.trim part).dropWhile (· ≠ '['))
    with ⟨positions, hpositions⟩ | ⟨fault, hfaulty⟩
  · by_cases hempty : (Text.trim part).takeWhile (· ≠ '[') = []
    · rw [hempty, List.nil_append] at hpart
      rw [← hpart] at hpositions
      exact .inl ⟨_, .positions hpositions (mt hpositions.eq_nil_iff.2 hblank)⟩
    · exact .inl ⟨_, .key hpart hempty hkey hpositions⟩
  · have hstop := List.head?_dropWhile_not (· ≠ '[') (Text.trim part)
    cases hrest : (Text.trim part).dropWhile (· ≠ '[') with
    | nil =>
        rw [hrest] at hfaulty
        cases hfaulty
    | cons c behind =>
        rw [hrest] at hpart hfaulty hstop
        obtain rfl : c = '[' := by simpa using hstop
        exact .inr ⟨fault, .brackets hpart hkey hfaulty⟩

/-! ## Paths -/

theorem parseParts_of_reads {parts : List (List Char × List Segment)}
    (hparts : ∀ part ∈ parts, ReadsPart part.1 part.2) :
    parseParts (parts.map Prod.fst) = .ok (parts.flatMap Prod.snd) := by
  induction parts with
  | nil => rfl
  | cons part rest ih =>
      obtain ⟨hpart, hrest⟩ := List.forall_mem_cons.1 hparts
      rw [List.map_cons, parseParts, parsePart_of_reads hpart, ih hrest]
      rfl

/-- The first bad part decides. -/
theorem parseParts_of_faulty {before after : List (List Char)} {part : List Char}
    {fault : PartFault} (hbefore : ∀ part ∈ before, ∃ segments, ReadsPart part segments)
    (hfaulty : FaultyPart part fault) :
    parseParts (before ++ part :: after) = .error fault := by
  induction before with
  | nil =>
      rw [List.nil_append, parseParts, parsePart_of_faulty hfaulty]
      rfl
  | cons first rest ih =>
      obtain ⟨⟨segments, hfirst⟩, hrest⟩ := List.forall_mem_cons.1 hbefore
      rw [List.cons_append, parseParts, parsePart_of_reads hfirst, ih hrest]
      rfl

theorem exists_reads_or_faulty (parts : List (List Char)) :
    (∃ read : List (List Char × List Segment), read.map Prod.fst = parts ∧
        ∀ part ∈ read, ReadsPart part.1 part.2) ∨
      ∃ before part after fault, parts = before ++ part :: after ∧
        (∀ part ∈ before, ∃ segments, ReadsPart part segments) ∧ FaultyPart part fault := by
  induction parts with
  | nil => exact .inl ⟨[], rfl, fun _ hmem => nomatch hmem⟩
  | cons first rest ih =>
      rcases reads_or_faulty first with ⟨segments, hfirst⟩ | ⟨fault, hfaulty⟩
      · rcases ih with ⟨read, rfl, hread⟩ | ⟨before, part, after, fault, rfl, hbefore, hfaulty⟩
        · exact .inl ⟨(first, segments) :: read, rfl, List.forall_mem_cons.2 ⟨hfirst, hread⟩⟩
        · exact .inr ⟨first :: before, part, after, fault, rfl,
            List.forall_mem_cons.2 ⟨⟨segments, hfirst⟩, hbefore⟩, hfaulty⟩
      · exact .inr ⟨[], first, rest, fault, rfl, List.forall_mem_nil _, hfaulty⟩

theorem trimmed_eq_empty_iff {text : String} :
    text.trimmed = "" ↔ Text.trim text.toList = [] := by
  rw [String.trimmed, ← String.toList_inj, String.toList_ofList, String.toList_empty]

theorem parse_of_reads {text : String} {result : Except PathError Path}
    (hreads : Reads text result) : parse text = result := by
  have hparts {parts : List (List Char)} (hne : parts ≠ [])
      (htext : text.trimmed.toList = ['.'].intercalate parts)
      (hfree : ∀ part ∈ parts, '.' ∉ part) :
      Text.splitAt '.' (Text.trim text.toList) = parts := by
    rw [String.trimmed, String.toList_ofList] at htext
    rw [htext, Text.splitAt_intercalate hne hfree]
  cases hreads with
  | blank hblank =>
      simp only [parse]
      rw [if_pos (trimmed_eq_empty_iff.1 hblank)]
  | @path parts hne htext hall =>
      have hfree : ∀ part ∈ parts.map Prod.fst, '.' ∉ part :=
        List.forall_mem_map.2 fun part hpart => (hall part hpart).1
      have hsplit := hparts (by simpa using hne) htext hfree
      have hread := parseParts_of_reads fun part hpart => (hall part hpart).2
      have htrim : Text.trim text.toList ≠ [] := by
        intro hblank
        have hempty : [] ∈ parts.map Prod.fst := by
          rw [← hsplit, hblank]
          exact List.mem_singleton_self []
        obtain ⟨part, hpart, hnil⟩ := List.mem_map.1 hempty
        exact (hall part hpart).2.trim_ne_nil (by rw [hnil, Text.trim_nil])
      simp only [parse]
      rw [if_neg htrim, hsplit, hread]
  | fault hne htext hfree hbefore hfaulty =>
      have hsplit := hparts (by simp) htext hfree
      simp only [parse]
      rw [if_neg (mt trimmed_eq_empty_iff.2 hne), hsplit, parseParts_of_faulty hbefore hfaulty]
      rfl

theorem exists_reads (text : String) : ∃ result, Reads text result := by
  by_cases hblank : text.trimmed = ""
  · exact ⟨_, .blank hblank⟩
  have htext := (Text.intercalate_splitAt '.' text.trimmed.toList).symm
  have hfree : ∀ part ∈ Text.splitAt '.' text.trimmed.toList, '.' ∉ part :=
    fun _ hpart => Text.not_mem_of_mem_splitAt hpart
  rcases exists_reads_or_faulty (Text.splitAt '.' text.trimmed.toList)
    with ⟨read, hread, hall⟩ | ⟨before, part, after, fault, hsplit, hbefore, hfaulty⟩
  · rw [← hread] at htext hfree
    refine ⟨_, .path ?_ htext fun part hpart =>
      ⟨hfree _ (List.mem_map_of_mem hpart), hall part hpart⟩⟩
    rintro rfl
    exact Text.splitAt_ne_nil _ _ hread.symm
  · rw [hsplit] at htext hfree
    exact ⟨_, .fault hblank htext hfree hbefore hfaulty⟩

/-- A text has exactly one reading, and it is the one that reading it gives. -/
theorem parse_eq_iff {text : String} {result : Except PathError Path} :
    parse text = result ↔ Reads text result := by
  constructor
  · rintro rfl
    obtain ⟨result, hreads⟩ := exists_reads text
    rw [parse_of_reads hreads]
    exact hreads
  · exact parse_of_reads

end LivePage.Path
