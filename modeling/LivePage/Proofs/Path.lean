import LivePage.Path
import LivePage.Proofs.Number.Numeral
import LivePage.Proofs.Text.Blank
import LivePage.Proofs.Text.Cut

/-!
# Parsed paths

What every path has that was read from a text: at least one step, since every part
between two dots holds a key or a position.  No step names anything with a dot or an
opening bracket in it, and there is no way to write these otherwise; nor is the name of
the last step empty or surrounded by blank characters.  All other names are keys as they
stand.
-/

namespace LivePage

namespace Path

theorem exists_of_map_eq_ok {ε α β : Type} {f : α → β} {result : Except ε α} {b : β}
    (hmap : result.map f = .ok b) : ∃ a, result = .ok a ∧ f a = b := by
  cases result with
  | error fault => cases hmap
  | ok a => exact ⟨a, rfl, Except.ok.inj hmap⟩

theorem parseIndices_ne_nil {c : Char} {cs : List Char} {segments : List Segment}
    (hparse : parseIndices (c :: cs) = .ok segments) : segments ≠ [] := by
  rw [parseIndices] at hparse
  split at hparse
  · split at hparse
    · cases hparse
    · split at hparse
      · cases hparse
      · obtain ⟨indices, -, rfl⟩ := exists_of_map_eq_ok hparse
        exact List.cons_ne_nil _ indices
  · cases hparse

theorem parsePart_ne_nil {part : List Char} {segments : List Segment}
    (hparse : parsePart part = .ok segments) : segments ≠ [] := by
  rw [parsePart] at hparse
  split at hparse
  · cases hparse
  · next hpart =>
      obtain ⟨indices, hindices, rfl⟩ := exists_of_map_eq_ok hparse
      generalize Text.trim part = trimmed at hpart hindices
      -- without a key the part begins with a bracket
      cases htake : trimmed.takeWhile (· ≠ '[') with
      | nil =>
          cases trimmed with
          | nil => exact absurd rfl hpart
          | cons c cs =>
              have hc : c = '[' := by simpa [List.takeWhile_cons] using htake
              rw [List.dropWhile_cons_of_neg (by simp [hc])] at hindices
              simpa using parseIndices_ne_nil hindices
      | cons c cs => simp

/-- Parts that were read, the first of them on its own. -/
theorem parseParts_cons {part : List Char} {rest : List (List Char)} {segments : List Segment}
    (hparse : parseParts (part :: rest) = .ok segments) :
    ∃ first others, parsePart part = .ok first ∧ parseParts rest = .ok others ∧
      segments = first ++ others := by
  rw [parseParts] at hparse
  cases hfirst : parsePart part with
  | error fault => rw [hfirst] at hparse; cases hparse
  | ok first =>
      cases hrest : parseParts rest with
      | error fault => rw [hfirst, hrest] at hparse; cases hparse
      | ok others =>
          rw [hfirst, hrest] at hparse
          exact ⟨first, others, rfl, rfl, (Except.ok.inj hparse).symm⟩

theorem parseParts_ne_nil {parts : List (List Char)} {segments : List Segment}
    (hparts : parts ≠ []) (hparse : parseParts parts = .ok segments) : segments ≠ [] := by
  cases parts with
  | nil => exact absurd rfl hparts
  | cons part rest =>
      obtain ⟨first, others, hfirst, -, rfl⟩ := parseParts_cons hparse
      exact List.append_ne_nil_of_left_ne_nil (parsePart_ne_nil hfirst) others

/-- A text that is a path has parts that were read. -/
theorem exists_of_parse {text : String} {path : Path} (hparse : parse text = .ok path) :
    parseParts (Text.splitAt '.' (Text.trim text.toList)) = .ok path.segments := by
  rw [parse] at hparse
  split at hparse
  · cases hparse
  · split at hparse
    · cases hparse
    · next segments hparts =>
        rw [← Except.ok.inj hparse]
        exact hparts

/-- A path that was read has a first step. -/
theorem segments_ne_nil {text : String} {path : Path} (hparse : parse text = .ok path) :
    path.segments ≠ [] :=
  parseParts_ne_nil (Text.splitAt_ne_nil '.' _) (exists_of_parse hparse)

/-- The name stands in a path as it is: it has no dot and no opening bracket, and no
blank characters around it. -/
structure IsPlain (name : String) : Prop where
  noDot : '.' ∉ name.toList
  noBracket : '[' ∉ name.toList
  trimmed : Text.trim name.toList = name.toList

/-- The name of a step holds nothing that would end it. -/
def IsBare (segment : Segment) : Prop :=
  '.' ∉ segment.name.toList ∧ '[' ∉ segment.name.toList

/-- The step is written as it is named. -/
def IsSound (segment : Segment) : Prop :=
  IsPlain segment.name ∧ segment.name ≠ ""

theorem isSound_index (position : UInt64) : IsSound (.index position) := by
  have hdigit {c : Char} (hc : c ∈ (Numeral.text position.toNat).toList) : c.isDigit = true :=
    Numeral.isDigit_of_mem_text hc
  refine ⟨⟨fun hdot => ?_, fun hbracket => ?_, ?_⟩, fun hempty => ?_⟩
  · exact absurd (hdigit hdot) (by decide)
  · exact absurd (hdigit hbracket) (by decide)
  · exact Text.trim_of_forall fun c hc => Text.isBlank_of_isDigit (hdigit hc)
  · exact Numeral.toList_text_ne_nil position.toNat (congrArg String.toList hempty)

/-- Behind a key there are positions only. -/
theorem exists_of_mem_parseIndices {cs : List Char} {segments : List Segment}
    (hparse : parseIndices cs = .ok segments) :
    ∀ segment ∈ segments, ∃ position, segment = .index position := by
  fun_induction parseIndices cs generalizing segments with
  | case1 =>
      rw [← Except.ok.inj hparse]
      exact fun _ hmem => absurd hmem List.not_mem_nil
  | case2 | case3 | case5 => cases hparse
  | case4 rest inner behind hcut position hposition ih =>
      obtain ⟨indices, hindices, rfl⟩ := exists_of_map_eq_ok hparse
      intro segment hmem
      rcases List.mem_cons.1 hmem with rfl | hlater
      · exact ⟨position, rfl⟩
      · exact ih hindices segment hlater

/-- A part is a key alone, or it begins with a key, if at all, and ends in positions. -/
theorem parsePart_cases {part : List Char} {segments : List Segment}
    (hparse : parsePart part = .ok segments) :
    (Text.trim part ≠ [] ∧ '[' ∉ Text.trim part ∧
        segments = [.key (String.ofList (Text.trim part))]) ∨
      ∃ key indices, key <+: Text.trim part ∧ '[' ∉ key ∧ indices ≠ [] ∧
        (∀ segment ∈ indices, ∃ position, segment = .index position) ∧
        (segments = indices ∨ segments = .key (String.ofList key) :: indices) := by
  rw [parsePart] at hparse
  split at hparse
  · cases hparse
  next hpart =>
  obtain ⟨indices, hindices, rfl⟩ := exists_of_map_eq_ok hparse
  generalize Text.trim part = trimmed at hpart hindices
  have hkey : '[' ∉ trimmed.takeWhile (· ≠ '[') := by
    intro hmem
    simpa using List.mem_takeWhile_imp hmem
  cases hrest : trimmed.dropWhile (· ≠ '[') with
  | nil =>
      have hall : trimmed.takeWhile (· ≠ '[') ++ trimmed.dropWhile (· ≠ '[') = trimmed :=
        List.takeWhile_append_dropWhile
      rw [hrest, List.append_nil] at hall
      rw [hrest, parseIndices] at hindices
      rw [hall] at hkey ⊢
      rw [if_neg hpart, ← Except.ok.inj hindices]
      exact .inl ⟨hpart, hkey, rfl⟩
  | cons c rest =>
      rw [hrest] at hindices
      refine .inr ⟨_, indices, List.takeWhile_prefix _, hkey, parseIndices_ne_nil hindices,
        exists_of_mem_parseIndices hindices, ?_⟩
      by_cases hempty : trimmed.takeWhile (· ≠ '[') = []
      · exact .inl (by rw [if_pos hempty, List.nil_append])
      · exact .inr (by rw [if_neg hempty, List.singleton_append])

theorem isBare_of_mem_parsePart {part : List Char} (hpart : '.' ∉ part) {segments : List Segment}
    (hparse : parsePart part = .ok segments) : ∀ segment ∈ segments, IsBare segment := by
  have hdot : '.' ∉ Text.trim part := fun hmem => hpart ((Text.trim_sublist part).mem hmem)
  have hindices {indices : List Segment}
      (hindices : ∀ segment ∈ indices, ∃ position, segment = .index position) :
      ∀ segment ∈ indices, IsBare segment := by
    intro segment hmem
    obtain ⟨position, rfl⟩ := hindices segment hmem
    exact ⟨(isSound_index position).1.noDot, (isSound_index position).1.noBracket⟩
  have hbare {key : List Char} (hkey : key <+: Text.trim part) (hbracket : '[' ∉ key) :
      IsBare (.key (String.ofList key)) := by
    rw [IsBare, Segment.name, String.toList_ofList]
    exact ⟨fun hmem => hdot (hkey.mem hmem), hbracket⟩
  rcases parsePart_cases hparse with ⟨-, hbracket, rfl⟩ |
    ⟨key, indices, hkey, hbracket, -, hpositions, rfl | rfl⟩
  · exact List.forall_mem_singleton.2 (hbare List.prefix_rfl hbracket)
  · exact hindices hpositions
  · exact List.forall_mem_cons.2 ⟨hbare hkey hbracket, hindices hpositions⟩

theorem isSound_of_getLast?_parsePart {part : List Char} (hpart : '.' ∉ part)
    {segments : List Segment} (hparse : parsePart part = .ok segments) :
    ∀ segment ∈ segments.getLast?, IsSound segment := by
  have hdot : '.' ∉ Text.trim part := fun hmem => hpart ((Text.trim_sublist part).mem hmem)
  rcases parsePart_cases hparse with ⟨hne, hbracket, rfl⟩ |
    ⟨key, indices, -, -, hne, hpositions, hsegments⟩
  · rintro segment ⟨⟩
    refine ⟨⟨?_, ?_, ?_⟩, fun hempty => ?_⟩
    · simpa [Segment.name] using hdot
    · simpa [Segment.name] using hbracket
    · simp [Segment.name]
    · exact hne (by simpa [Segment.name] using congrArg String.toList hempty)
  · have hlast : segments.getLast? = indices.getLast? := by
      rcases hsegments with rfl | rfl
      · rfl
      · exact List.getLast?_cons_of_ne_nil hne
    intro segment hmem
    rw [hlast] at hmem
    obtain ⟨position, rfl⟩ := hpositions segment (List.mem_of_mem_getLast? hmem)
    exact isSound_index position

theorem isBare_of_mem_parseParts {parts : List (List Char)} (hparts : ∀ part ∈ parts, '.' ∉ part)
    {segments : List Segment} (hparse : parseParts parts = .ok segments) :
    ∀ segment ∈ segments, IsBare segment := by
  induction parts generalizing segments with
  | nil =>
      rw [← Except.ok.inj hparse]
      exact fun _ hmem => absurd hmem List.not_mem_nil
  | cons part rest ih =>
      obtain ⟨hpart, hrest⟩ := List.forall_mem_cons.1 hparts
      obtain ⟨first, others, hfirst, hothers, rfl⟩ := parseParts_cons hparse
      intro segment hmem
      rcases List.mem_append.1 hmem with hmem | hmem
      · exact isBare_of_mem_parsePart hpart hfirst segment hmem
      · exact ih hrest hothers segment hmem

theorem isSound_of_getLast?_parseParts {parts : List (List Char)}
    (hparts : ∀ part ∈ parts, '.' ∉ part) {segments : List Segment}
    (hparse : parseParts parts = .ok segments) :
    ∀ segment ∈ segments.getLast?, IsSound segment := by
  induction parts generalizing segments with
  | nil =>
      rw [← Except.ok.inj hparse]
      exact fun _ hmem => nomatch hmem
  | cons part rest ih =>
      obtain ⟨hpart, hrest⟩ := List.forall_mem_cons.1 hparts
      obtain ⟨first, others, hfirst, hothers, rfl⟩ := parseParts_cons hparse
      cases rest with
      | nil =>
          rw [← Except.ok.inj hothers, List.append_nil]
          exact isSound_of_getLast?_parsePart hpart hfirst
      | cons second rest =>
          have hne : others ≠ [] := parseParts_ne_nil (List.cons_ne_nil second rest) hothers
          rw [List.getLast?_append_of_ne_nil first hne]
          exact ih hrest hothers

/-- No step of a path names anything with a dot or an opening bracket in it. -/
theorem isBare_of_mem_segments {text : String} {path : Path} (hparse : parse text = .ok path) :
    ∀ segment ∈ path.segments, IsBare segment :=
  isBare_of_mem_parseParts (fun _ => Text.not_mem_of_mem_splitAt) (exists_of_parse hparse)

/-- The last step of a path is written as it is named. -/
theorem isSound_of_getLast? {text : String} {path : Path} (hparse : parse text = .ok path) :
    ∀ segment ∈ path.segments.getLast?, IsSound segment :=
  isSound_of_getLast?_parseParts (fun _ => Text.not_mem_of_mem_splitAt) (exists_of_parse hparse)

/-- A part without a bracket is a key. -/
theorem parsePart_of_not_mem {part : List Char} (hbracket : '[' ∉ part)
    (hne : Text.trim part ≠ []) :
    parsePart part = .ok [.key (String.ofList (Text.trim part))] := by
  have hall : ∀ c ∈ Text.trim part, c ≠ '[' := by
    rintro c hmem rfl
    exact hbracket ((Text.trim_sublist part).mem hmem)
  have htake : (Text.trim part).takeWhile (· ≠ '[') = Text.trim part :=
    List.takeWhile_eq_self_iff.2 (by simpa using hall)
  have hdrop : (Text.trim part).dropWhile (· ≠ '[') = [] :=
    List.dropWhile_eq_nil_iff.2 (by simpa using hall)
  simp only [parsePart]
  rw [if_neg hne, htake, hdrop, if_neg hne, parseIndices]
  rfl

theorem parsePart_of_blank {part : List Char} (hblank : Text.trim part = []) :
    parsePart part = .error .emptySegment := by
  simp only [parsePart]
  rw [if_pos hblank]

section Root

variable {text root : String} {name : List Char} (hroot : IsPlain root) (hne : root ≠ "")
  (htext : text.toList = root.toList ++ '.' :: name)

include hroot hne

theorem parseParts_root (parts : List (List Char)) :
    parseParts (root.toList :: parts) = (parseParts parts).map (.key root :: ·) := by
  have hkey : Text.trim root.toList ≠ [] := by
    rw [hroot.trimmed]
    exact fun hempty => hne (String.toList_injective hempty)
  rw [parseParts, parsePart_of_not_mem hroot.noBracket hkey, hroot.trimmed, String.ofList_toList]
  cases parseParts parts <;> rfl

include htext

theorem splitAt_root :
    Text.splitAt '.' (Text.trim text.toList) =
      root.toList :: Text.splitAt '.' (Text.trimEnd name) := by
  have hchars : root.toList ≠ [] := fun hempty => hne (String.toList_injective hempty)
  rw [htext, Text.trim_append_cons hroot.trimmed hchars (by decide),
    Text.splitAt_append_cons hroot.noDot]

/-- What stands in front of the first dot of a path is its first step. -/
theorem exists_of_parse_root {path : Path} (hparse : parse text = .ok path) :
    ∃ rest, rest ≠ [] ∧ path.segments = .key root :: rest := by
  have hparts := exists_of_parse hparse
  rw [splitAt_root hroot hne htext, parseParts_root hroot hne] at hparts
  obtain ⟨rest, hrest, hsegments⟩ := exists_of_map_eq_ok hparts
  exact ⟨rest, parseParts_ne_nil (Text.splitAt_ne_nil '.' _) hrest, hsegments.symm⟩

/-- A path of two names is read as these, without the blank characters behind it. -/
theorem parse_root (hdot : '.' ∉ name) (hbracket : '[' ∉ name) (hname : Text.trim name ≠ []) :
    parse text = .ok ⟨[.key root, .key (String.ofList (Text.trim name))]⟩ := by
  have hend : Text.trim (Text.trimEnd name) = Text.trim name := Text.trim_trimEnd name
  have hsublist : (Text.trimEnd name).Sublist name := Text.trimEnd_sublist name
  have hrest : parseParts (Text.splitAt '.' (Text.trimEnd name)) =
      .ok [.key (String.ofList (Text.trim name))] := by
    rw [Text.splitAt_of_not_mem fun hmem => hdot (hsublist.mem hmem), parseParts,
      parsePart_of_not_mem (fun hmem => hbracket (hsublist.mem hmem)) (hend ▸ hname), hend]
    rfl
  have hparts := parseParts_root hroot hne (Text.splitAt '.' (Text.trimEnd name))
  rw [← splitAt_root hroot hne htext, hrest] at hparts
  have htrim : Text.trim text.toList ≠ [] := by
    intro hempty
    rw [hempty] at hparts
    cases hparts
  rw [parse, if_neg htrim, hparts]
  rfl

/-- A path that ends in a name without a dot or a bracket has the name for its second step
and no further ones. -/
theorem segments_of_parse_root (hdot : '.' ∉ name) (hbracket : '[' ∉ name) {path : Path}
    (hparse : parse text = .ok path) :
    Text.trim name ≠ [] ∧ path.segments = [.key root, .key (String.ofList (Text.trim name))] := by
  by_cases hname : Text.trim name = []
  · have hparts := exists_of_parse hparse
    have hend : '.' ∉ Text.trimEnd name := fun hmem => hdot ((Text.trimEnd_sublist name).mem hmem)
    rw [splitAt_root hroot hne htext, parseParts_root hroot hne, Text.splitAt_of_not_mem hend,
      parseParts, parsePart_of_blank ((Text.trim_trimEnd name).trans hname)] at hparts
    cases hparts
  · rw [parse_root hroot hne htext hdot hbracket hname] at hparse
    rw [← Except.ok.inj hparse]
    exact ⟨hname, rfl⟩

end Root

end Path

end LivePage
