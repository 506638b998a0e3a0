import Mathlib.Data.List.Infix
import LivePage.Text.Cut

/-!
# Where texts are cut

A text is cut at the first place that fits.  So what stands before the cut holds no
such place, and a text in which there is one can be cut in one way only.
-/

namespace LivePage.Text

theorem occurs_eq_true_iff {needle cs : List Char} : occurs needle cs = true ↔ needle <:+: cs := by
  induction cs with
  | nil => rw [occurs, List.isEmpty_iff, List.infix_nil]
  | cons a rest ih =>
      rw [occurs, Bool.or_eq_true, List.isPrefixOf_iff_prefix, ih, List.infix_cons_iff]

@[simp]
theorem cutAtPair_pair (c : Char) (behind : List Char) :
    cutAtPair c (c :: c :: behind) = some ([], behind) := by
  simp [cutAtPair]

/-- In front of a character that begins no pair a text is cut where its rest is. -/
theorem cutAtPair_cons {c a : Char} {rest : List Char} (hpair : ¬[c, c] <+: a :: rest) :
    cutAtPair c (a :: rest) =
      (cutAtPair c rest).map fun (before, behind) => (a :: before, behind) := by
  cases rest with
  | nil => rfl
  | cons b rest =>
      have hne : ¬(a = c ∧ b = c) := by
        rintro ⟨rfl, rfl⟩
        exact hpair ⟨rest, rfl⟩
      rw [cutAtPair, if_neg hne]

theorem cutAtPair_eq_none_iff {c : Char} {cs : List Char} :
    cutAtPair c cs = none ↔ ¬[c, c] <:+: cs := by
  induction cs with
  | nil => simp [cutAtPair]
  | cons a rest ih =>
      by_cases hpair : [c, c] <+: a :: rest
      · obtain ⟨behind, hbehind⟩ := hpair
        rw [← hbehind]
        simp [List.IsPrefix.isInfix]
      · rw [cutAtPair_cons hpair, Option.map_eq_none_iff, ih, List.infix_cons_iff, not_or]
        exact (and_iff_right hpair).symm

/-- What begins a text with a pair behind it begins already with the first half of the pair. -/
theorem pair_prefix_iff {c a : Char} (rest behind : List Char) :
    [c, c] <+: a :: (rest ++ c :: c :: behind) ↔ [c, c] <+: a :: (rest ++ [c]) := by
  have hextends : a :: (rest ++ [c]) <+: a :: (rest ++ c :: c :: behind) :=
    ⟨c :: behind, by simp⟩
  constructor
  · intro hprefix
    exact List.prefix_of_prefix_length_le hprefix hextends (by simp)
  · intro hprefix
    exact hprefix.trans hextends

/-- A text is cut at a pair if none stands in front of it, nor begins there. -/
theorem cutAtPair_append {c : Char} {before : List Char} (hfree : ¬[c, c] <:+: before ++ [c])
    (behind : List Char) : cutAtPair c (before ++ c :: c :: behind) = some (before, behind) := by
  induction before with
  | nil => exact cutAtPair_pair c behind
  | cons a rest ih =>
      rw [List.cons_append, List.infix_cons_iff, not_or, ← pair_prefix_iff rest behind] at hfree
      rw [List.cons_append, cutAtPair_cons hfree.1, ih hfree.2, Option.map_some]

/-- A text is cut at its first pair: none stands in front of the cut, nor begins there. -/
theorem cutAtPair_eq_some_iff {c : Char} {cs before behind : List Char} :
    cutAtPair c cs = some (before, behind) ↔
      cs = before ++ c :: c :: behind ∧ ¬[c, c] <:+: before ++ [c] := by
  constructor
  · intro hcut
    refine ⟨cutAtPair_eq_some hcut, ?_⟩
    fun_induction cutAtPair c cs generalizing before with
    | case1 | case2 => cases hcut
    | case3 a b rest hpair =>
        obtain ⟨rfl, -⟩ := Prod.mk.inj (Option.some.inj hcut)
        exact fun hinfix => absurd hinfix.length_le (by simp)
    | case4 a b rest hpair ih =>
        simp only [Option.map_eq_some_iff, Prod.exists, Prod.mk.injEq] at hcut
        obtain ⟨front, _, hrest, rfl, rfl⟩ := hcut
        have hsource := cutAtPair_eq_some hrest
        rw [List.cons_append, List.infix_cons_iff, not_or, ← pair_prefix_iff front, ← hsource]
        refine ⟨?_, ih hrest⟩
        rintro ⟨tail, htail⟩
        obtain ⟨hfirst, hlater⟩ := List.cons.inj htail
        obtain ⟨hsecond, -⟩ := List.cons.inj hlater
        exact hpair ⟨hfirst.symm, hsecond.symm⟩
  · rintro ⟨rfl, hfree⟩
    exact cutAtPair_append hfree behind

/-- No pair stands in a text and the character behind it, if none stands in the text and the
text does not end in that character. -/
theorem not_infix_append_singleton {c : Char} {cs : List Char} (hfree : ¬[c, c] <:+: cs)
    (hend : ¬[c] <:+ cs) : ¬[c, c] <:+: cs ++ [c] := by
  rw [List.infix_concat_iff, List.suffix_concat_iff]
  rintro ((hnil | ⟨front, hfront, hsuffix⟩) | hinfix)
  · cases hnil
  · have hpair : [c] ++ [c] = front ++ [c] := hfront
    rw [← List.append_cancel_right hpair] at hsuffix
    exact hend hsuffix
  · exact hfree hinfix

theorem cutAt_eq_none_iff {c : Char} {cs : List Char} : cutAt c cs = none ↔ c ∉ cs := by
  induction cs with
  | nil => simp [cutAt]
  | cons a rest ih =>
      rw [cutAt, List.mem_cons, not_or]
      split
      · next ha => simp [ha]
      · next ha => rw [Option.map_eq_none_iff, ih, and_iff_right (Ne.symm ha)]

/-- A text is cut at the first separator. -/
theorem cutAt_append {c : Char} {before : List Char} (hfree : c ∉ before) (behind : List Char) :
    cutAt c (before ++ c :: behind) = some (before, behind) := by
  induction before with
  | nil => rw [List.nil_append, cutAt, if_pos rfl]
  | cons a rest ih =>
      obtain ⟨hne, hrest⟩ := not_or.1 (mt List.mem_cons.2 hfree)
      rw [List.cons_append, cutAt, if_neg (Ne.symm hne), ih hrest, Option.map_some]

theorem not_mem_of_cutAt {c : Char} {cs before behind : List Char}
    (hcut : cutAt c cs = some (before, behind)) : c ∉ before := by
  induction cs generalizing before with
  | nil => cases hcut
  | cons a rest ih =>
      rw [cutAt] at hcut
      split at hcut
      · obtain ⟨rfl, -⟩ := Prod.mk.inj (Option.some.inj hcut)
        exact List.not_mem_nil
      · next ha =>
          simp only [Option.map_eq_some_iff, Prod.exists, Prod.mk.injEq] at hcut
          obtain ⟨front, _, hrest, rfl, rfl⟩ := hcut
          exact mt List.mem_cons.1 (not_or.2 ⟨Ne.symm ha, ih hrest⟩)

/-- A text without the separator is one part. -/
theorem splitAt_of_not_mem {c : Char} {cs : List Char} (hfree : c ∉ cs) : splitAt c cs = [cs] := by
  induction cs with
  | nil => rfl
  | cons a rest ih =>
      obtain ⟨hne, hrest⟩ := not_or.1 (mt List.mem_cons.2 hfree)
      rw [splitAt, if_neg (Ne.symm hne), ih hrest]

/-- No part holds the separator. -/
theorem not_mem_of_mem_splitAt {c : Char} {cs part : List Char} (hpart : part ∈ splitAt c cs) :
    c ∉ part := by
  fun_induction splitAt c cs generalizing part with
  | case1 =>
      rw [List.mem_singleton.1 hpart]
      exact List.not_mem_nil
  | case2 rest ih =>
      rcases List.mem_cons.1 hpart with rfl | hrest
      · exact List.not_mem_nil
      · exact ih hrest
  | case3 a rest hne hsplit =>
      rw [List.mem_singleton.1 hpart]
      simpa using Ne.symm hne
  | case4 a rest hne first parts hsplit ih =>
      rw [hsplit] at ih
      rcases List.mem_cons.1 hpart with rfl | hlater
      · exact mt List.mem_cons.1 (not_or.2 ⟨Ne.symm hne, ih List.mem_cons_self⟩)
      · exact ih (List.mem_cons_of_mem _ hlater)

/-- The parts hold nothing but characters of the text. -/
theorem mem_of_mem_splitAt {c a : Char} {cs part : List Char} (hpart : part ∈ splitAt c cs)
    (ha : a ∈ part) : a ∈ cs := by
  fun_induction splitAt c cs generalizing part with
  | case1 => rwa [List.mem_singleton.1 hpart] at ha
  | case2 rest ih =>
      rcases List.mem_cons.1 hpart with rfl | hrest
      · exact absurd ha List.not_mem_nil
      · exact List.mem_cons_of_mem _ (ih hrest ha)
  | case3 b rest hne hsplit =>
      rw [List.mem_singleton.1 hpart, List.mem_singleton] at ha
      exact List.mem_cons.2 (.inl ha)
  | case4 b rest hne first parts hsplit ih =>
      rw [hsplit] at ih
      rcases List.mem_cons.1 hpart with rfl | hlater
      · rcases List.mem_cons.1 ha with rfl | hfirst
        · exact List.mem_cons_self
        · exact List.mem_cons_of_mem _ (ih List.mem_cons_self hfirst)
      · exact List.mem_cons_of_mem _ (ih (List.mem_cons_of_mem _ hlater) ha)

theorem splitAt_ne_nil (c : Char) (cs : List Char) : splitAt c cs ≠ [] := by
  cases cs with
  | nil => simp [splitAt]
  | cons a rest =>
      rw [splitAt]
      split
      · simp
      · split <;> simp

/-- A separator ends one part and begins the next. -/
theorem splitAt_append (c : Char) (before behind : List Char) :
    splitAt c (before ++ c :: behind) = splitAt c before ++ splitAt c behind := by
  induction before with
  | nil => simp [splitAt]
  | cons a rest ih =>
      rw [List.cons_append, splitAt, splitAt, ih]
      split
      · rfl
      · cases hsplit : splitAt c rest with
        | nil => exact absurd hsplit (splitAt_ne_nil c rest)
        | cons first parts => rfl

/-- The first separator ends the first part. -/
theorem splitAt_append_cons {c : Char} {before : List Char} (hfree : c ∉ before)
    (behind : List Char) : splitAt c (before ++ c :: behind) = before :: splitAt c behind := by
  rw [splitAt_append, splitAt_of_not_mem hfree, List.singleton_append]

/-- The parts of a text, with the separator between them, make up the text. -/
theorem intercalate_splitAt (c : Char) (cs : List Char) :
    [c].intercalate (splitAt c cs) = cs := by
  induction cs with
  | nil => rfl
  | cons a rest ih =>
      cases hsplit : splitAt c rest with
      | nil => exact absurd hsplit (splitAt_ne_nil c rest)
      | cons first parts =>
          rw [hsplit] at ih
          rw [splitAt, hsplit]
          split
          · next ha =>
              rw [ha, List.intercalate_cons_cons, ih, List.nil_append, List.singleton_append]
          · cases parts with
            | nil => rw [← ih, List.intercalate_singleton, List.intercalate_singleton]
            | cons second parts =>
                rw [List.intercalate_cons_cons] at ih ⊢
                rw [← ih, List.cons_append, List.cons_append]

/-- Parts without the separator are told apart by it. -/
theorem splitAt_intercalate {c : Char} {parts : List (List Char)} (hne : parts ≠ [])
    (hfree : ∀ part ∈ parts, c ∉ part) : splitAt c ([c].intercalate parts) = parts := by
  induction parts with
  | nil => exact absurd rfl hne
  | cons part rest ih =>
      obtain ⟨hpart, hrest⟩ := List.forall_mem_cons.1 hfree
      cases rest with
      | nil => rw [List.intercalate_singleton, splitAt_of_not_mem hpart]
      | cons next rest =>
          rw [List.intercalate_cons_cons, List.append_assoc, List.singleton_append,
            splitAt_append_cons hpart, ih (List.cons_ne_nil next rest) hrest]

theorem intercalate_cons_flatMap (c : Char) (first : List Char) (rest : List (List Char)) :
    [c].intercalate (first :: rest) = first ++ rest.flatMap (c :: ·) := by
  induction rest generalizing first with
  | nil => rw [List.intercalate_singleton, List.flatMap_nil, List.append_nil]
  | cons next rest ih =>
      rw [List.intercalate_cons_cons, ih, List.flatMap_cons, List.append_assoc]
      rfl

end LivePage.Text

namespace String

theorem mentions_eq_false_iff {t s : String} : t.mentions s = false ↔ ¬s.toList <:+: t.toList := by
  rw [← Bool.not_eq_true, mentions, LivePage.Text.occurs_eq_true_iff]

theorem closesWith_eq_false_iff {t s : String} :
    t.closesWith s = false ↔ ¬s.toList <:+ t.toList := by
  rw [← Bool.not_eq_true, closesWith, List.isSuffixOf_iff_suffix]

end String
