import LivePage.Proofs.Path
import LivePage.Proofs.Path.Grammar

/-!
# Printed paths

The text of a path writes every key with the positions behind it, and positions alone
only in front of the first key.  Whatever blanks, plus signs and dots a path was read
with, its text is read as the same path again.
-/

namespace LivePage.Path

/-! ## Positions -/

/-- Positions as they are written. -/
def brackets (positions : List UInt64) : List Char :=
  positions.flatMap fun position => '[' :: (Numeral.digits position.toNat ++ [']'])

theorem brackets_cons (position : UInt64) (positions : List UInt64) :
    brackets (position :: positions) =
      '[' :: (Numeral.digits position.toNat ++ ']' :: brackets positions) := by
  simp [brackets]

theorem mem_brackets {c : Char} {positions : List UInt64} (hc : c ∈ brackets positions) :
    c = '[' ∨ c = ']' ∨ c.isDigit = true := by
  obtain ⟨position, -, hposition⟩ := List.mem_flatMap.1 hc
  rcases List.mem_cons.1 hposition with rfl | hposition
  · exact .inl rfl
  · rcases List.mem_append.1 hposition with hdigit | hclose
    · exact .inr (.inr (Nat.isDigit_of_mem_toDigits (by decide) (by decide) hdigit))
    · exact .inr (.inl (List.mem_singleton.1 hclose))

theorem isBlank_of_mem_brackets {c : Char} {positions : List UInt64}
    (hc : c ∈ brackets positions) : Text.isBlank c = false := by
  rcases mem_brackets hc with rfl | rfl | hdigit
  · decide
  · decide
  · exact Text.isBlank_of_isDigit hdigit

theorem dot_notMem_brackets (positions : List UInt64) : '.' ∉ brackets positions := by
  intro hdot
  have hother := mem_brackets hdot
  exact absurd hother (by decide)

theorem brackets_eq_nil_iff {positions : List UInt64} :
    brackets positions = [] ↔ positions = [] := by
  cases positions with
  | nil => simp [brackets]
  | cons position positions => simp [brackets_cons]

/-- Written positions are read as they were. -/
theorem positions_brackets (positions : List UInt64) :
    Positions (brackets positions) positions := by
  induction positions with
  | nil => exact .nil
  | cons position positions ih =>
      rw [brackets_cons]
      have hdigit : ∀ c ∈ Numeral.digits position.toNat, Text.isBlank c = false := fun c hc =>
        Text.isBlank_of_isDigit (Nat.isDigit_of_mem_toDigits (by decide) (by decide) hc)
      refine .cons ?_ ih
      rw [Text.trim_of_forall hdigit]
      exact Numeral.names_digits position

/-! ## Groups of steps -/

/-- A key with the positions behind it. -/
structure Group where
  key : String
  positions : List UInt64

namespace Group

def segments (group : Group) : List Segment :=
  .key group.key :: group.positions.map .index

def text (group : Group) : List Char :=
  group.key.toList ++ brackets group.positions

/-- The group stands in the text of a path as it is. -/
structure IsPlain (group : Group) : Prop where
  noKey : group.key ≠ ""
  noDot : '.' ∉ group.key.toList
  noBracket : '[' ∉ group.key.toList
  trimmed : Text.trim group.text = group.text

theorem IsPlain.readsPart {group : Group} (hplain : group.IsPlain) :
    ReadsPart group.text group.segments := by
  have hkey : group.key.toList ≠ [] := fun hnil => hplain.noKey (String.toList_injective hnil)
  have hreads := ReadsPart.key hplain.trimmed hkey hplain.noBracket
    (positions_brackets group.positions)
  rwa [String.ofList_toList] at hreads

theorem IsPlain.text_ne_nil {group : Group} (hplain : group.IsPlain) : group.text ≠ [] := by
  intro hnil
  exact hplain.noKey (String.toList_injective (List.append_eq_nil_iff.1 hnil).1)

end Group

/-- A key that was read keeps its blanks inside only: it ends a part, or positions stand
behind it. -/
theorem Group.isPlain_of_part {part key behind : List Char} {positions : List UInt64}
    (hdot : '.' ∉ part) (hpart : Text.trim part = key ++ behind) (hne : key ≠ [])
    (hkey : '[' ∉ key) (hpositions : Positions behind positions) (further : List UInt64) :
    IsPlain ⟨String.ofList key, positions ++ further⟩ := by
  obtain ⟨hfirst, hlast⟩ := Text.trim_eq_self_iff.1 (Text.trim_trim part)
  refine ⟨fun hempty => ?_, fun hmem => ?_, ?_, ?_⟩
  · exact hne (by simpa using congrArg String.toList hempty)
  · rw [String.toList_ofList] at hmem
    exact hdot ((Text.trim_sublist part).mem (hpart ▸ List.mem_append_left behind hmem))
  · rwa [String.toList_ofList]
  · rw [text, String.toList_ofList, Text.trim_eq_self_iff, List.head?_append_of_ne_nil _ hne]
    rw [hpart, List.head?_append_of_ne_nil _ hne] at hfirst
    refine ⟨hfirst, fun c hc => ?_⟩
    by_cases hnone : positions ++ further = []
    · obtain ⟨hnil, -⟩ := List.append_eq_nil_iff.1 hnone
      rw [brackets_eq_nil_iff.2 hnone, List.append_nil] at hc
      rw [hpart, hpositions.eq_nil_iff.2 hnil, List.append_nil] at hlast
      exact hlast c hc
    · rw [List.getLast?_append_of_ne_nil _ (mt brackets_eq_nil_iff.1 hnone)] at hc
      exact isBlank_of_mem_brackets (List.mem_of_mem_getLast? hc)

/-- The steps of a path that was read are positions, and then keys with positions behind
them. -/
theorem exists_groups {parts : List (List Char × List Segment)}
    (hparts : ∀ part ∈ parts, '.' ∉ part.1 ∧ ReadsPart part.1 part.2) :
    ∃ (leading : List UInt64) (groups : List Group), parts.flatMap Prod.snd =
        leading.map .index ++ groups.flatMap Group.segments ∧
      ∀ group ∈ groups, group.IsPlain := by
  induction parts with
  | nil => exact ⟨[], [], rfl, List.forall_mem_nil _⟩
  | cons part rest ih =>
      obtain ⟨⟨hdot, hreads⟩, hrest⟩ := List.forall_mem_cons.1 hparts
      obtain ⟨leading, groups, hsegments, hgroups⟩ := ih hrest
      obtain ⟨part, segments⟩ := part
      rw [List.flatMap_cons, hsegments]
      cases hreads with
      | @positions positions hpositions hne =>
          refine ⟨positions ++ leading, groups, ?_, hgroups⟩
          rw [List.map_append, List.append_assoc]
      | @key key behind positions hpart hne hkey hpositions =>
          -- positions alone in the next part are printed behind this key
          refine ⟨[], ⟨String.ofList key, positions ++ leading⟩ :: groups, ?_, ?_⟩
          · simp [Group.segments]
          · exact List.forall_mem_cons.2
              ⟨Group.isPlain_of_part hdot hpart hne hkey hpositions leading, hgroups⟩

/-! ## The text of a path -/

/-- The parts that the text of a path is made of. -/
def printed (leading : List UInt64) (groups : List Group) : List (List Char × List Segment) :=
  (if leading = [] then [] else [(brackets leading, leading.map .index)]) ++
    groups.map fun group => (group.text, group.segments)

theorem flatMap_printed (leading : List UInt64) (groups : List Group) :
    (printed leading groups).flatMap Prod.snd =
      leading.map .index ++ groups.flatMap Group.segments := by
  rw [printed, List.flatMap_append, List.flatMap_map]
  split
  · next hnil => simp [hnil]
  · simp

/-- Every printed part is read as what it was printed for. -/
theorem reads_printed (leading : List UInt64) {groups : List Group}
    (hgroups : ∀ group ∈ groups, group.IsPlain) :
    ∀ part ∈ printed leading groups,
      '.' ∉ part.1 ∧ ReadsPart part.1 part.2 ∧ part.1 ≠ [] ∧ Text.trim part.1 = part.1 := by
  intro part hpart
  rcases List.mem_append.1 hpart with hleading | hgroup
  · split at hleading
    · cases hleading
    · next hne =>
        rw [List.mem_singleton.1 hleading]
        have htrim : Text.trim (brackets leading) = brackets leading :=
          Text.trim_of_forall fun _ => isBlank_of_mem_brackets
        have hpositions := positions_brackets leading
        rw [← htrim] at hpositions
        exact ⟨dot_notMem_brackets leading, .positions hpositions hne,
          mt brackets_eq_nil_iff.1 hne, htrim⟩
  · obtain ⟨group, hmem, rfl⟩ := List.mem_map.1 hgroup
    have hplain := hgroups group hmem
    refine ⟨fun hdot => ?_, hplain.readsPart, hplain.text_ne_nil, hplain.trimmed⟩
    rcases List.mem_append.1 hdot with hkey | hbrackets
    · exact hplain.noDot hkey
    · exact dot_notMem_brackets _ hbrackets

theorem toList_join (segments : List Segment) :
    (String.join (segments.map segmentText)).toList =
      segments.flatMap fun segment => (segmentText segment).toList := by
  rw [String.toList_join, List.flatMap_map]

theorem flatMap_positions (positions : List UInt64) :
    (positions.map Segment.index).flatMap (fun segment => (segmentText segment).toList) =
      brackets positions := by
  rw [List.flatMap_map, brackets]
  congr 1
  funext position
  simp [segmentText, Numeral.text]

/-- A group is printed with a dot in front. -/
theorem flatMap_segments (group : Group) :
    group.segments.flatMap (fun segment => (segmentText segment).toList) = '.' :: group.text := by
  rw [Group.segments, List.flatMap_cons, flatMap_positions, segmentText, String.toList_append,
    Group.text]
  rfl

theorem flatMap_groups (groups : List Group) :
    (groups.flatMap Group.segments).flatMap (fun segment => (segmentText segment).toList) =
      groups.flatMap fun group => '.' :: group.text := by
  rw [List.flatMap_assoc]
  simp only [flatMap_segments]

/-- Only the first key is written without a dot. -/
theorem text_key (name : String) (rest : List Segment) :
    text ⟨.key name :: rest⟩ = name ++ String.join (rest.map segmentText) := rfl

theorem text_index (position : UInt64) (rest : List Segment) :
    text ⟨.index position :: rest⟩ = String.join ((.index position :: rest).map segmentText) := rfl

/-- The text of a path is its parts with dots between them. -/
theorem toList_text (leading : List UInt64) (groups : List Group) :
    (text ⟨leading.map .index ++ groups.flatMap Group.segments⟩).toList =
      ['.'].intercalate ((printed leading groups).map Prod.fst) := by
  cases leading with
  | cons position positions =>
      have hparts : (printed (position :: positions) groups).map Prod.fst =
          brackets (position :: positions) :: groups.map Group.text := by
        simp [printed]
      rw [List.map_cons, List.cons_append, text_index, ← List.cons_append, ← List.map_cons,
        toList_join, List.flatMap_append, flatMap_positions, flatMap_groups, hparts,
        Text.intercalate_cons_flatMap, List.flatMap_map]
  | nil =>
      cases groups with
      | nil => rfl
      | cons group rest =>
          have hparts : (printed [] (group :: rest)).map Prod.fst =
              group.text :: rest.map Group.text := by
            simp [printed]
          rw [List.map_nil, List.nil_append, List.flatMap_cons, Group.segments, List.cons_append,
            text_key, String.toList_append, toList_join, List.flatMap_append, flatMap_positions,
            flatMap_groups, hparts, Text.intercalate_cons_flatMap, List.flatMap_map, Group.text,
            List.append_assoc]

/-- The text of a path that was read is read as that path. -/
theorem reads_text {source : String} {path : Path} (hparse : parse source = .ok path) :
    Reads path.text (.ok path) := by
  have hsteps : path.segments ≠ [] := segments_ne_nil hparse
  generalize hresult : Except.ok path = result at hparse
  cases parse_eq_iff.1 hparse with
  | blank | fault => cases hresult
  | @path parts hne hsource hparts =>
      obtain rfl := Except.ok.inj hresult
      obtain ⟨leading, groups, hsegments, hgroups⟩ := exists_groups hparts
      have hprinted := reads_printed leading hgroups
      rw [hsegments, ← flatMap_printed] at hsteps ⊢
      refine .path ?_ ?_ fun part hpart => ⟨(hprinted part hpart).1, (hprinted part hpart).2.1⟩
      · rintro hnil
        exact hsteps (by rw [hnil]; rfl)
      · rw [flatMap_printed, String.trimmed, String.toList_ofList, toList_text]
        apply Text.trim_intercalate
        rw [List.forall_mem_map]
        exact fun part hpart => (hprinted part hpart).2.2

/-- Which texts are paths, and what the others are refused for.  Reading a text gives
exactly what the grammar says of it: the steps of its parts, or, with the trimmed text, the
fault of a blank text or of its first bad part.  And the text of every path that can be read
is read as that path again. -/
theorem parse_grammar :
    (∀ text result, parse text = result ↔ Reads text result) ∧
      ∀ text path, parse text = .ok path → parse path.text = .ok path :=
  ⟨fun _ _ => parse_eq_iff, fun _ _ hparse => parse_of_reads (reads_text hparse)⟩

/-- A key keeps the blank in front of its bracket, and the position of the next part is
printed behind it; of two bad parts the first is reported. -/
theorem parse_grammar_of_blanks :
    let path : Path := ⟨[.key "a ", .index 1, .index 2, .key "b"]⟩
    parse " a [ +1 ]. [02] .b" = .ok path ∧ parse "a [1][2].b" = .ok path ∧
      Reads " a..b[ " (.error (.emptySegment "a..b[")) := by
  intro path
  obtain ⟨hgrammar, hprint⟩ := parse_grammar
  have hparse : parse " a [ +1 ]. [02] .b" = .ok path := by decide +kernel
  have htext : path.text = "a [1][2].b" := by decide +kernel
  have hfault : parse " a..b[ " = .error (.emptySegment "a..b[") := by decide +kernel
  refine ⟨hparse, ?_, (hgrammar _ _).1 hfault⟩
  rw [← htext]
  exact hprint _ path hparse

end LivePage.Path
