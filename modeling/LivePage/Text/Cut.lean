/-!
# Cutting texts

Searching and splitting over lists of characters.  Each function cuts at the
first place that fits and loses nothing but the separator it cuts at.
-/

namespace LivePage.Text

/-- What stands before the first `c`, and what stands behind it. -/
def cutAt (c : Char) : List Char → Option (List Char × List Char)
  | [] => none
  | a :: rest =>
      if a = c then some ([], rest)
      else (cutAt c rest).map fun (before, behind) => (a :: before, behind)

/-- What stands before the first place with two `c` in a row, and what stands
behind that pair. -/
def cutAtPair (c : Char) : List Char → Option (List Char × List Char)
  | [] => none
  | [_] => none
  | a :: b :: rest =>
      if a = c ∧ b = c then some ([], rest)
      else (cutAtPair c (b :: rest)).map fun (before, behind) => (a :: before, behind)

/-- The parts between the separators; a text without a separator is one part. -/
def splitAt (c : Char) : List Char → List (List Char)
  | [] => [[]]
  | a :: rest =>
      if a = c then [] :: splitAt c rest
      else match splitAt c rest with
        | [] => [[a]]
        | part :: parts => (a :: part) :: parts

/-- Whether `needle` stands somewhere in the text. -/
def occurs (needle : List Char) : List Char → Bool
  | [] => needle.isEmpty
  | c :: rest => needle.isPrefixOf (c :: rest) || occurs needle rest

/-- Replaces the needle wherever it stands, from left to right. -/
def replaceAll (needle by' : List Char) (cs : List Char) : List Char :=
  go cs.length cs
where
  go : Nat → List Char → List Char
    | 0, cs => cs
    | _, [] => []
    | fuel + 1, c :: rest =>
        if needle ≠ [] ∧ needle.isPrefixOf (c :: rest) then
          by' ++ go fuel ((c :: rest).drop needle.length)
        else c :: go fuel rest

/-- The lines of a text, without their line ends. -/
def lines (s : String) : List String :=
  (splitAt '\n' s.toList).map String.ofList

theorem cutAt_eq_some {c : Char} {cs before behind : List Char}
    (h : cutAt c cs = some (before, behind)) : cs = before ++ c :: behind := by
  induction cs generalizing before with
  | nil => simp [cutAt] at h
  | cons a rest ih =>
      by_cases ha : a = c
      · simp_all [cutAt]
      · simp only [cutAt, if_neg ha, Option.map_eq_some_iff, Prod.exists, Prod.mk.injEq] at h
        obtain ⟨b, r, hcut, rfl, rfl⟩ := h
        simp [ih hcut]

theorem cutAtPair_eq_some {c : Char} {cs before behind : List Char}
    (h : cutAtPair c cs = some (before, behind)) : cs = before ++ c :: c :: behind := by
  fun_induction cutAtPair c cs generalizing before with
  | case1 => simp at h
  | case2 => simp at h
  | case3 a b rest hab => simp_all
  | case4 a b rest hab ih =>
      simp only [Option.map_eq_some_iff, Prod.exists, Prod.mk.injEq] at h
      obtain ⟨p, r, hcut, rfl, rfl⟩ := h
      simp [ih hcut]

/-- Behind a pair less is left than before. -/
theorem length_of_cutAtPair {c : Char} {cs before behind : List Char}
    (h : cutAtPair c cs = some (before, behind)) : behind.length < cs.length := by
  rw [cutAtPair_eq_some h]
  simp
  omega

theorem length_of_cutAt {c : Char} {cs before behind : List Char}
    (h : cutAt c cs = some (before, behind)) : behind.length < cs.length := by
  rw [cutAt_eq_some h]
  simp
  omega

end LivePage.Text

namespace String

/-- Whether the text begins with `s`. -/
def beginsWith (t s : String) : Bool :=
  s.toList.isPrefixOf t.toList

/-- Whether the text ends with `s`. -/
def closesWith (t s : String) : Bool :=
  s.toList.isSuffixOf t.toList

/-- Whether `s` stands somewhere in the text. -/
def mentions (t s : String) : Bool :=
  LivePage.Text.occurs s.toList t.toList

/-- The text with `needle` replaced wherever it stands. -/
def replacing (t needle by' : String) : String :=
  String.ofList (LivePage.Text.replaceAll needle.toList by'.toList t.toList)

end String
