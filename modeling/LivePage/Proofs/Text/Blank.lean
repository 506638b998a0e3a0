import Mathlib.Data.List.DropRight
import LivePage.Text.Blank

/-!
# Trimmed texts

Trimming drops the blank characters in front and those behind, and it does not matter
which of them first.  So a trimmed text is trimmed for good.
-/

namespace LivePage.Text

theorem trimStart_cons (c : Char) (cs : List Char) :
    trimStart (c :: cs) = if isBlank c then trimStart cs else c :: cs := by
  rw [trimStart, List.dropWhile_cons, trimStart]

theorem trimEnd_cons (c : Char) (cs : List Char) :
    trimEnd (c :: cs) =
      if trimEnd cs = [] then (if isBlank c then [] else [c]) else c :: trimEnd cs := by
  simp only [trimEnd, trimStart, List.reverse_cons, List.dropWhile_append, List.reverse_eq_nil_iff,
    List.isEmpty_iff]
  by_cases hrest : cs.reverse.dropWhile isBlank = []
  · cases hc : isBlank c <;> simp [hrest, hc]
  · simp [hrest]

theorem trimStart_trimStart (cs : List Char) : trimStart (trimStart cs) = trimStart cs :=
  List.dropWhile_idempotent ..

/-- Behind a character that is not blank a text is trimmed for itself. -/
theorem trimEnd_append_cons {c : Char} (hc : isBlank c = false) (before cs : List Char) :
    trimEnd (before ++ c :: cs) = before ++ c :: trimEnd cs := by
  induction before with
  | nil =>
      rw [List.nil_append, trimEnd_cons, hc]
      split
      · next hrest => simp [hrest]
      · rfl
  | cons a before ih =>
      rw [List.cons_append, trimEnd_cons, ih, if_neg (by simp)]
      rfl

theorem trimStart_trimEnd (cs : List Char) : trimStart (trimEnd cs) = trimEnd (trimStart cs) := by
  induction cs with
  | nil => rfl
  | cons c cs ih =>
      rw [trimEnd_cons, trimStart_cons]
      cases hc : isBlank c with
      | true =>
          rw [if_pos rfl, if_pos rfl, ← ih]
          split
          · next hrest => rw [hrest]
          · rw [trimStart_cons, if_pos hc]
      | false =>
          rw [if_neg Bool.false_ne_true, if_neg Bool.false_ne_true, trimEnd_cons, hc,
            if_neg Bool.false_ne_true]
          split
          · simp [trimStart_cons, hc]
          · rw [trimStart_cons, hc, if_neg Bool.false_ne_true]

theorem trimEnd_trimEnd (cs : List Char) : trimEnd (trimEnd cs) = trimEnd cs := by
  rw [trimEnd.eq_def cs, trimEnd, List.reverse_reverse, trimStart_trimStart]

theorem trim_trimEnd (cs : List Char) : trim (trimEnd cs) = trim cs := by
  rw [trim, trimStart_trimEnd, trimEnd_trimEnd, trim]

@[simp]
theorem trim_trim (cs : List Char) : trim (trim cs) = trim cs := by
  rw [trim.eq_def cs, trim_trimEnd, trim, trimStart_trimStart]

theorem trimEnd_sublist (cs : List Char) : (trimEnd cs).Sublist cs := by
  have hreverse : (trimStart cs.reverse).Sublist cs.reverse := List.dropWhile_sublist _
  simpa [trimEnd] using hreverse.reverse

theorem trim_sublist (cs : List Char) : (trim cs).Sublist cs :=
  (trimEnd_sublist _).trans (List.dropWhile_sublist _)

theorem trimStart_eq_self_iff {cs : List Char} :
    trimStart cs = cs ↔ ∀ c ∈ cs.head?, isBlank c = false := by
  cases cs with
  | nil => simp [trimStart]
  | cons a rest =>
      rw [trimStart_cons]
      cases ha : isBlank a with
      | true =>
          have hlength : (trimStart rest).length ≤ rest.length :=
            (List.dropWhile_sublist _).length_le
          have hne : trimStart rest ≠ a :: rest := by
            intro heq
            rw [heq, List.length_cons] at hlength
            omega
          simp [ha, hne]
      | false => simp [ha]

theorem trimEnd_eq_self_iff {cs : List Char} :
    trimEnd cs = cs ↔ ∀ c ∈ cs.getLast?, isBlank c = false := by
  rw [trimEnd, List.reverse_eq_iff, trimStart_eq_self_iff, List.head?_reverse]

/-- A text is trimmed if it neither begins nor ends with a blank character. -/
theorem trim_eq_self_iff {cs : List Char} :
    trim cs = cs ↔
      (∀ c ∈ cs.head?, isBlank c = false) ∧ ∀ c ∈ cs.getLast?, isBlank c = false := by
  rw [← trimStart_eq_self_iff, ← trimEnd_eq_self_iff]
  constructor
  · intro htrim
    have hstart : trimStart (trim cs) = trim cs := by
      rw [trim, trimStart_trimEnd, trimStart_trimStart]
    have hend : trimEnd (trim cs) = trim cs := by rw [trim, trimEnd_trimEnd]
    rw [htrim] at hstart hend
    exact ⟨hstart, hend⟩
  · rintro ⟨hstart, hend⟩
    rw [trim, hstart, hend]

/-- A trimmed text does not begin with a blank character. -/
theorem isBlank_of_trim_cons {c : Char} {cs : List Char} (htrim : trim (c :: cs) = c :: cs) :
    isBlank c = false :=
  (trim_eq_self_iff.1 htrim).1 c rfl

/-- A trimmed text in front of a character that is not blank keeps a text from being trimmed
anywhere but at its end. -/
theorem trim_append_cons {before : List Char} (hbefore : trim before = before)
    (hne : before ≠ []) {c : Char} (hc : isBlank c = false) (cs : List Char) :
    trim (before ++ c :: cs) = before ++ c :: trimEnd cs := by
  cases before with
  | nil => exact absurd rfl hne
  | cons a before =>
      rw [trim, List.cons_append, trimStart_cons, isBlank_of_trim_cons hbefore,
        if_neg Bool.false_ne_true, ← List.cons_append, trimEnd_append_cons hc]

/-- Only blank characters are lost. -/
theorem mem_trim {c : Char} {cs : List Char} (hmem : c ∈ cs) (hc : isBlank c = false) :
    c ∈ trim cs := by
  have hstart {cs : List Char} (hmem : c ∈ cs) : c ∈ trimStart cs := by
    induction cs with
    | nil => exact hmem
    | cons a rest ih =>
        rw [trimStart_cons]
        split
        · next ha =>
            rcases List.mem_cons.1 hmem with rfl | hlater
            · exact absurd ha (by simp [hc])
            · exact ih hlater
        · exact hmem
  rw [trim, trimEnd, List.mem_reverse]
  exact hstart (List.mem_reverse.2 (hstart hmem))

/-- Nothing is left of a text exactly if all of it is blank. -/
theorem trim_eq_nil_iff {cs : List Char} : trim cs = [] ↔ allBlank cs = true := by
  rw [allBlank, List.all_eq_true]
  constructor
  · intro htrim c hc
    by_contra hblank
    have hmem := mem_trim hc (Bool.not_eq_true _ ▸ hblank)
    rw [htrim] at hmem
    cases hmem
  · intro hcs
    have hstart : trimStart cs = [] := List.dropWhile_eq_nil_iff.2 hcs
    rw [trim, hstart]
    rfl

/-- A text without blank characters loses nothing. -/
theorem trim_of_forall {cs : List Char} (hcs : ∀ c ∈ cs, isBlank c = false) : trim cs = cs :=
  trim_eq_self_iff.2
    ⟨fun c hc => hcs c (List.mem_of_mem_head? hc), fun c hc => hcs c (List.mem_of_mem_getLast? hc)⟩

/-- Trimmed parts that are not empty make up a trimmed text. -/
theorem trim_intercalate {c : Char} {parts : List (List Char)}
    (hparts : ∀ part ∈ parts, part ≠ [] ∧ trim part = part) :
    trim ([c].intercalate parts) = [c].intercalate parts := by
  suffices hends : (∀ a ∈ ([c].intercalate parts).head?, isBlank a = false) ∧
      (∀ a ∈ ([c].intercalate parts).getLast?, isBlank a = false) ∧
      (parts ≠ [] → [c].intercalate parts ≠ []) from
    trim_eq_self_iff.2 ⟨hends.1, hends.2.1⟩
  induction parts with
  | nil => simp
  | cons part rest ih =>
      obtain ⟨⟨hne, htrim⟩, hrest⟩ := List.forall_mem_cons.1 hparts
      obtain ⟨hfirst, hlast⟩ := trim_eq_self_iff.1 htrim
      obtain ⟨-, ihlast, ihne⟩ := ih hrest
      cases rest with
      | nil =>
          rw [List.intercalate_singleton]
          exact ⟨hfirst, hlast, fun _ => hne⟩
      | cons next rest =>
          rw [List.intercalate_cons_cons, List.append_assoc, List.head?_append_of_ne_nil _ hne,
            ← List.append_assoc,
            List.getLast?_append_of_ne_nil _ (ihne (List.cons_ne_nil next rest))]
          exact ⟨hfirst, ihlast, by simp [hne]⟩

end LivePage.Text
