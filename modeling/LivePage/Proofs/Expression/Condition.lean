import Mathlib
import LivePage.Expression.Condition
import LivePage.Proofs.Expression.Equality
import LivePage.Proofs.Expression.Evaluation

/-!
# Fields and comparisons

The value that a condition tests is named by a path, or by a template that is one
placeholder.  Either way it is looked up at that path, also where the path is malformed or
leads nowhere, so the two spellings of a field mean the same.

Every number but not-a-number has a place on one line, and the values that stand for numbers
stand there too.  The ordering operators compare places, and so does loose equality of two
such values, though it looks at the documents first.  So the comparisons of numbers go
together as those of a linear order do.
-/

namespace LivePage

/-! ## Fields -/

/-- A text stands alone between braces if the first closing pair is the one behind it. -/
theorem Template.standsAlone_of_free {token : String} (hblank : token.isBlank = false)
    (hclose : token.mentions "\x7d\x7d" = false) (hend : token.closesWith "\x7d" = false) :
    StandsAlone ("\x7b\x7b" ++ token ++ "\x7d\x7d") token where
  written := rfl
  notBlank := hblank
  closedLast := closedLast_iff.2 <| Text.not_infix_append_singleton
    (String.mentions_eq_false_iff.1 hclose) (String.closesWith_eq_false_iff.1 hend)

theorem Template.StandsAlone.opens {source token : String} (halone : StandsAlone source token) :
    opens source = true := by
  rw [Template.opens, String.mentions, Text.occurs_eq_true_iff, halone.written]
  exact ⟨[], token.toList ++ ['}', '}'], by simp⟩

namespace Condition

theorem actual_of_opens_eq_false (condition : Condition)
    (hpath : Template.opens condition.field = false) (context : Context) :
    condition.actual context = context.lookup condition.field := by
  rw [actual, hpath, if_neg Bool.false_ne_true]

theorem actual_of_standsAlone {condition : Condition} {token : String}
    (halone : Template.StandsAlone condition.field token) (context : Context) :
    condition.actual context = context.lookup token := by
  rw [actual, halone.opens, if_pos rfl, Template.evaluate_of_standsAlone halone]

/-- A path means the same as a field and as the only placeholder of a field, whatever the
operator and the expected value: any text that is not blank, opens no placeholder itself and
leaves the closing of the one around it to the braces behind it.  The text need be no
well-formed path. -/
theorem path_means_placeholder (context : Context) (operator : Operator) (value : Option Json)
    {path : String} (hblank : path.isBlank = false) (hopen : path.mentions "\x7b\x7b" = false)
    (hclose : path.mentions "\x7d\x7d" = false) (hend : path.closesWith "\x7d" = false) :
    holds { field := "\x7b\x7b" ++ path ++ "\x7d\x7d", operator, value } context =
      holds { field := path, operator, value } context := by
  have htemplate : actual { field := "\x7b\x7b" ++ path ++ "\x7d\x7d", operator, value } context =
      context.lookup path :=
    actual_of_standsAlone (Template.standsAlone_of_free hblank hclose hend) context
  have hpath : actual { field := path, operator, value } context = context.lookup path :=
    actual_of_opens_eq_false { field := path, operator, value } hopen context
  rw [holds, holds, htemplate, hpath]
  rfl

/-- A path with blanks around it and single braces in it leads to an item, and one with a
position that is never closed leads nowhere. -/
theorem path_means_placeholder_of_braces :
    let context : Context := { form := Dict.ofList [("\x7da\x7b", .arr [.str "x"])] }
    let path := "\u00a0form.\x7da\x7b[0] "
    let torn := "form.\x7da\x7b[0"
    (path.isBlank = false ∧ path.mentions "\x7b\x7b" = false ∧
        path.mentions "\x7d\x7d" = false ∧ path.closesWith "\x7d" = false) ∧
      (torn.isBlank = false ∧ torn.mentions "\x7b\x7b" = false ∧
        torn.mentions "\x7d\x7d" = false ∧ torn.closesWith "\x7d" = false) ∧
      holds ⟨"\x7b\x7b" ++ path ++ "\x7d\x7d", .equals, some (.str "x")⟩ context = true ∧
      holds ⟨"\x7b\x7b" ++ torn ++ "\x7d\x7d", .isEmpty, none⟩ context = true := by
  intro context path torn
  have hpath : path.isBlank = false ∧ path.mentions "\x7b\x7b" = false ∧
      path.mentions "\x7d\x7d" = false ∧ path.closesWith "\x7d" = false := by decide
  have htorn : torn.isBlank = false ∧ torn.mentions "\x7b\x7b" = false ∧
      torn.mentions "\x7d\x7d" = false ∧ torn.closesWith "\x7d" = false := by decide
  refine ⟨hpath, htorn, ?_, ?_⟩
  · obtain ⟨hblank, hopen, hclose, hend⟩ := hpath
    rw [path_means_placeholder context _ _ hblank hopen hclose hend]
    decide +kernel
  · obtain ⟨hblank, hopen, hclose, hend⟩ := htorn
    rw [path_means_placeholder context _ _ hblank hopen hclose hend]
    decide +kernel

/-- A closing brace at the end of a path is taken for half of the pair that closes the
placeholder. -/
example :
    let context : Context := { form := Dict.ofList [("a\x7d", .bool false)] }
    holds ⟨"form.a\x7d", .isFalse, none⟩ context = true ∧
      holds ⟨"\x7b\x7bform.a\x7d\x7d\x7d", .isFalse, none⟩ context = false := by
  decide +kernel

end Condition

/-! ## Comparisons -/

namespace Binary64

/-- A place on the line of numbers, with the infinities at its ends. -/
abbrev Place : Type :=
  WithBot (WithTop ℤ)

/-- Where a double stands; both zeros stand in one place, and not-a-number in none. -/
def place? : Binary64 → Option Place
  | nan => none
  | infinite true => some ⊥
  | infinite false => some ⊤
  | finite negative units => some ((signedUnits negative units : WithTop ℤ) : Place)

@[simp]
theorem place?_eq_none_iff {x : Binary64} : x.place? = none ↔ x = nan := by
  rcases x with _ | (_ | _) | _ <;> simp [place?]

theorem coe_lt_top (units : ℤ) : ((units : WithTop ℤ) : Place) < ⊤ :=
  WithBot.coe_lt_coe.2 (WithTop.coe_lt_top units)

/-- The smaller of two doubles is the one that stands in front of the other. -/
theorem below_iff {x y : Binary64} :
    x.below y = true ↔ ∃ i ∈ x.place?, ∃ j ∈ y.place?, i < j := by
  cases x with
  | nan => simp [below, place?]
  | infinite a =>
      cases y with
      | nan => cases a <;> simp [below, place?]
      | infinite b => cases a <;> cases b <;> simp [below, place?]
      | finite b n => cases a <;> simp [below, place?]
  | finite a m =>
      cases y with
      | nan => simp [below, place?]
      | infinite b => cases b <;> simp [below, place?, coe_lt_top]
      | finite b n => simp [below, place?]

/-- Doubles are the same if they stand in one place. -/
theorem same_iff_place {x y : Binary64} :
    x.same y = true ↔ ∃ i ∈ x.place?, ∃ j ∈ y.place?, i = j := by
  cases x with
  | nan => simp [same, place?]
  | infinite a =>
      cases y with
      | nan => cases a <;> simp [same, place?]
      | infinite b => cases a <;> cases b <;> simp [same, place?]
      | finite b n => cases a <;> simp [same, place?]
  | finite a m =>
      cases y with
      | nan => simp [same, place?]
      | infinite b => cases b <;> simp [same, place?]
      | finite b n => simpa [same, place?] using eq_comm

theorem below_or_same_iff {x y : Binary64} :
    (x.below y || x.same y) = true ↔ ∃ i ∈ x.place?, ∃ j ∈ y.place?, i ≤ j := by
  rw [Bool.or_eq_true, below_iff, same_iff_place]
  simp only [le_iff_lt_or_eq, and_or_left, exists_or]

theorem same_comm (x y : Binary64) : x.same y = y.same x := by
  rw [Bool.eq_iff_iff, same_iff_place, same_iff_place]
  constructor
  · rintro ⟨i, hi, j, hj, rfl⟩
    exact ⟨i, hj, i, hi, rfl⟩
  · rintro ⟨i, hi, j, hj, rfl⟩
    exact ⟨i, hj, i, hi, rfl⟩

end Binary64

/-- Numbers that are the same in documents stand in one place. -/
theorem Number.place?_of_same {n m : Number} (hsame : n.same m = true) :
    n.toBinary64.place? = m.toBinary64.place? := by
  cases n with
  | int i =>
      cases m with
      | int j => rw [eq_of_beq hsame]
      | double y => cases hsame
  | double x =>
      cases m with
      | int j => cases hsame
      | double y =>
          obtain ⟨i, hi, j, hj, rfl⟩ := Binary64.same_iff_place.1 hsame
          exact (Option.mem_def.1 hi).trans (Option.mem_def.1 hj).symm

namespace Json

open Binary64 (Place)

/-- Where the number that a value stands for stands. -/
def place? (j : Json) : Option Place :=
  j.asNumber?.bind Binary64.place?

/-- The value stands for a number, and that is not the one that is not-a-number. -/
def IsNumeric (j : Json) : Prop :=
  ∃ x, j.asNumber? = some x ∧ x ≠ .nan

theorem isNumeric_iff {j : Json} : j.IsNumeric ↔ ∃ i, j.place? = some i := by
  rw [place?]
  constructor
  · rintro ⟨x, hnumber, hx⟩
    rw [hnumber, Option.bind_some]
    exact Option.ne_none_iff_exists'.1 (mt Binary64.place?_eq_none_iff.1 hx)
  · rintro ⟨i, hplace⟩
    obtain ⟨x, hnumber, hx⟩ := Option.bind_eq_some_iff.1 hplace
    refine ⟨x, hnumber, ?_⟩
    rintro rfl
    cases hx

theorem isNumeric_of_places {a b : Json} {related : Place → Place → Prop}
    (hplaces : ∃ i ∈ a.place?, ∃ j ∈ b.place?, related i j) : a.IsNumeric ∧ b.IsNumeric := by
  obtain ⟨i, hi, j, hj, -⟩ := hplaces
  exact ⟨isNumeric_iff.2 ⟨i, hi⟩, isNumeric_iff.2 ⟨j, hj⟩⟩

/-- A test of two numbers that asks how their places are related asks that of the values that
stand for them. -/
theorem ordered_iff {test : Binary64 → Binary64 → Bool} {related : Place → Place → Prop}
    (htest : ∀ x y, test x y = true ↔ ∃ i ∈ x.place?, ∃ j ∈ y.place?, related i j) {a b : Json} :
    ordered test a b = true ↔ ∃ i ∈ a.place?, ∃ j ∈ b.place?, related i j := by
  rw [ordered, place?, place?]
  cases a.asNumber? with
  | none => simp
  | some x =>
      cases b.asNumber? with
      | none => simp
      | some y => exact htest x y

/-- Equal documents stand in one place, or both in none. -/
theorem place?_of_same {a b : Json} (hsame : a.same b = true) : a.place? = b.place? := by
  cases a with
  | num n =>
      cases b with
      | num m => exact Number.place?_of_same hsame
      | _ => cases hsame
  | str s =>
      cases b with
      | str t => rw [eq_of_beq hsame]
      | _ => cases hsame
  | null =>
      cases b with
      | null => rfl
      | _ => cases hsame
  | bool value =>
      cases b with
      | bool other => rfl
      | _ => cases hsame
  | arr items =>
      cases b with
      | arr others => rfl
      | _ => cases hsame
  | obj members =>
      cases b with
      | obj others => rfl
      | _ => cases hsame

/-- Values that stand for numbers are loosely equal if these stand in one place. -/
theorem looselyEqual_iff_place {a b : Json} {i j : Place} (ha : a.place? = some i)
    (hb : b.place? = some j) : a.looselyEqual b = true ↔ i = j := by
  rw [looselyEqual]
  -- Equal documents are not compared as numbers, so their places have to be shown equal.
  split
  · next hsame =>
      have hplaces := place?_of_same hsame
      rw [ha, hb, Option.some.injEq] at hplaces
      exact iff_of_true rfl hplaces
  · obtain ⟨x, hx, hi⟩ := Option.bind_eq_some_iff.1 ha
    obtain ⟨y, hy, hj⟩ := Option.bind_eq_some_iff.1 hb
    rw [hx, hy]
    change x.same y = true ↔ i = j
    rw [Binary64.same_iff_place, hi, hj]
    simpa using eq_comm

/-- A test with its operands exchanged. -/
theorem ordered_swap (test : Binary64 → Binary64 → Bool) (a b : Json) :
    ordered (fun x y => test y x) a b = ordered test b a := by
  rw [ordered, ordered]
  cases a.asNumber? with
  | none => cases b.asNumber? <;> rfl
  | some x => cases b.asNumber? <;> rfl

end Json

namespace Operator

open Binary64 (Place)

variable {a b : Json} {i j : Place}

theorem lessThan_iff :
    lessThan.holds a b = true ↔ ∃ i ∈ a.place?, ∃ j ∈ b.place?, i < j :=
  Json.ordered_iff fun _ _ => Binary64.below_iff

theorem lessThanOrEqual_iff :
    lessThanOrEqual.holds a b = true ↔ ∃ i ∈ a.place?, ∃ j ∈ b.place?, i ≤ j :=
  Json.ordered_iff fun _ _ => Binary64.below_or_same_iff

theorem greaterThan_eq (a b : Json) : greaterThan.holds a b = lessThan.holds b a :=
  Json.ordered_swap Binary64.below a b

theorem greaterThanOrEqual_eq (a b : Json) :
    greaterThanOrEqual.holds a b = lessThanOrEqual.holds b a := by
  have hcomm : (fun x y : Binary64 => y.below x || x.same y) =
      fun x y => y.below x || y.same x := by
    funext x y
    rw [Binary64.same_comm]
  rw [holds, hcomm]
  exact Json.ordered_swap (fun x y => x.below y || x.same y) a b

/-- Only numbers are ordered. -/
theorem isNumeric_of_ordering {operator : Operator}
    (hmem : operator ∈ [lessThan, lessThanOrEqual, greaterThan, greaterThanOrEqual])
    (hholds : operator.holds a b = true) : a.IsNumeric ∧ b.IsNumeric := by
  simp only [List.mem_cons, List.not_mem_nil, or_false] at hmem
  rcases hmem with rfl | rfl | rfl | rfl
  · exact Json.isNumeric_of_places (lessThan_iff.1 hholds)
  · exact Json.isNumeric_of_places (lessThanOrEqual_iff.1 hholds)
  · rw [greaterThan_eq] at hholds
    exact (Json.isNumeric_of_places (lessThan_iff.1 hholds)).symm
  · rw [greaterThanOrEqual_eq] at hholds
    exact (Json.isNumeric_of_places (lessThanOrEqual_iff.1 hholds)).symm

section

variable (ha : a.place? = some i) (hb : b.place? = some j)

include ha hb

theorem lessThan_iff_of_places : lessThan.holds a b = true ↔ i < j := by
  simp [lessThan_iff, ha, hb]

theorem lessThanOrEqual_iff_of_places : lessThanOrEqual.holds a b = true ↔ i ≤ j := by
  simp [lessThanOrEqual_iff, ha, hb]

theorem equals_iff_of_places : equals.holds a b = true ↔ i = j :=
  Json.looselyEqual_iff_place ha hb

/-- Of two numbers one is the smaller one, or they are equal. -/
theorem existsUnique_comparison :
    ∃! operator, operator ∈ [lessThan, equals, greaterThan] ∧ operator.holds a b = true := by
  have hless := lessThan_iff_of_places ha hb
  have hequal := equals_iff_of_places ha hb
  have hgreater : greaterThan.holds a b = true ↔ j < i := by
    rw [greaterThan_eq, lessThan_iff_of_places hb ha]
  simp only [List.mem_cons, List.not_mem_nil, or_false]
  rcases lt_trichotomy i j with hbefore | hsame | hbehind
  · refine ⟨lessThan, ⟨.inl rfl, hless.2 hbefore⟩, ?_⟩
    rintro operator ⟨rfl | rfl | rfl, hholds⟩
    · rfl
    · exact absurd (hequal.1 hholds) hbefore.ne
    · exact absurd (hgreater.1 hholds) hbefore.not_gt
  · refine ⟨equals, ⟨.inr (.inl rfl), hequal.2 hsame⟩, ?_⟩
    rintro operator ⟨rfl | rfl | rfl, hholds⟩
    · exact absurd hsame (hless.1 hholds).ne
    · rfl
    · exact absurd hsame (hgreater.1 hholds).ne'
  · refine ⟨greaterThan, ⟨.inr (.inr rfl), hgreater.2 hbehind⟩, ?_⟩
    rintro operator ⟨rfl | rfl | rfl, hholds⟩
    · exact absurd (hless.1 hholds) hbehind.not_gt
    · exact absurd (hequal.1 hholds) hbehind.ne'
    · rfl

theorem lessThanOrEqual_iff_or :
    lessThanOrEqual.holds a b = true ↔
      lessThan.holds a b = true ∨ equals.holds a b = true := by
  rw [lessThanOrEqual_iff_of_places ha hb, lessThan_iff_of_places ha hb,
    equals_iff_of_places ha hb, le_iff_lt_or_eq]

end

/-- How the comparisons of two values go together.  If both stand for numbers, other than
not-a-number, one of them is smaller or they are equal, and not two of these at once; and the
operators that allow for equality hold where a strict one or equality does.  For any values
an operator holds exactly if the opposite one holds of them exchanged, and without two such
numbers no ordering holds.  A text of not-a-number equals that very text and nothing else.  A
condition in a context asks this of the values that its field and its expected value come to
there. -/
theorem comparisons_coherent (a b : Json) :
    (a.IsNumeric → b.IsNumeric →
      (∃! operator, operator ∈ [lessThan, equals, greaterThan] ∧ operator.holds a b = true) ∧
        (lessThanOrEqual.holds a b = true ↔
          lessThan.holds a b = true ∨ equals.holds a b = true) ∧
        (greaterThanOrEqual.holds a b = true ↔
          greaterThan.holds a b = true ∨ equals.holds a b = true)) ∧
      greaterThan.holds a b = lessThan.holds b a ∧
      greaterThanOrEqual.holds a b = lessThanOrEqual.holds b a ∧
      (¬(a.IsNumeric ∧ b.IsNumeric) →
        ∀ operator ∈ [lessThan, lessThanOrEqual, greaterThan, greaterThanOrEqual],
          operator.holds a b = false) ∧
      (∀ s, (Json.str s).asNumber? = some .nan →
        (equals.holds (.str s) a = true ↔ a = .str s) ∧
          (equals.holds a (.str s) = true ↔ a = .str s) ∧
          ∀ operator ∈ [lessThan, lessThanOrEqual, greaterThan, greaterThanOrEqual],
            operator.holds (.str s) a = false ∧ operator.holds a (.str s) = false) ∧
      ∀ (context : Context) (condition : Condition), condition.actual context = a →
        condition.expected context = b →
        condition.holds context = condition.operator.holds a b := by
  refine ⟨fun ha hb => ?_, greaterThan_eq a b, greaterThanOrEqual_eq a b, ?_, fun s hnan => ?_, ?_⟩
  · obtain ⟨i, hi⟩ := Json.isNumeric_iff.1 ha
    obtain ⟨j, hj⟩ := Json.isNumeric_iff.1 hb
    refine ⟨existsUnique_comparison hi hj, lessThanOrEqual_iff_or hi hj, ?_⟩
    have hequal : equals.holds b a = true ↔ equals.holds a b = true := by
      rw [equals_iff_of_places hj hi, equals_iff_of_places hi hj, eq_comm]
    rw [greaterThanOrEqual_eq, greaterThan_eq, lessThanOrEqual_iff_or hj hi, hequal]
  · intro hnumeric operator hmem
    rw [← Bool.not_eq_true]
    exact mt (isNumeric_of_ordering hmem) hnumeric
  · refine ⟨Json.looselyEqual_iff_of_nan hnan a, Json.looselyEqual_nan_iff hnan a, ?_⟩
    have hunordered : ¬(Json.str s).IsNumeric := by
      rintro ⟨x, hnumber, hx⟩
      exact hx (Option.some.inj (hnumber.symm.trans hnan))
    refine fun operator hmem => ⟨?_, ?_⟩
    · rw [← Bool.not_eq_true]
      exact fun hholds => hunordered (isNumeric_of_ordering hmem hholds).1
    · rw [← Bool.not_eq_true]
      exact fun hholds => hunordered (isNumeric_of_ordering hmem hholds).2
  · rintro context condition rfl rfl
    rfl

/-- A text of ten is greater than nine, though it would come before it as a text, and a word
for it is no number.  Two texts of not-a-number are not equal. -/
theorem comparisons_coherent_of_ten :
    let ten := Json.str " 1e1 "
    let nine := Json.ofNat 9
    let word := Json.str "ten"
    let context : Context := { form := Dict.ofList [("n", ten)] }
    (ten.IsNumeric ∧ nine.IsNumeric ∧ ¬word.IsNumeric) ∧
      (∃! operator, operator ∈ [lessThan, equals, greaterThan] ∧
        operator.holds ten nine = true) ∧
      greaterThanOrEqual.holds ten nine = true ∧ lessThan.holds nine ten = true ∧
      lessThanOrEqual.holds word nine = false ∧
      equals.holds (.str " NaN ") (.str "nan") = false ∧
      Condition.holds ⟨"form.n", .greaterThan, some nine⟩ context = true := by
  intro ten nine word context
  have hten : ten.IsNumeric := ⟨Binary64.ofDecimal false 1 1, by decide +kernel, by decide +kernel⟩
  have hnine : nine.IsNumeric := ⟨Binary64.ofNat false 9, by decide +kernel, by decide +kernel⟩
  have hword : ¬word.IsNumeric := by
    rintro ⟨x, hnumber, -⟩
    have hnone : word.asNumber? = none := by decide +kernel
    cases hnone.symm.trans hnumber
  have hgreater : greaterThan.holds ten nine = true := by decide +kernel
  obtain ⟨hnumbers, hswap, -, -, -, hcondition⟩ := comparisons_coherent ten nine
  obtain ⟨hunique, -, hatLeast⟩ := hnumbers hten hnine
  obtain ⟨-, -, -, hunordered, -⟩ := comparisons_coherent word nine
  obtain ⟨-, -, -, -, hnan, -⟩ := comparisons_coherent (.str "nan") nine
  have hself := (hnan " NaN " (by decide)).1
  refine ⟨⟨hten, hnine, hword⟩, hunique, hatLeast.2 (.inl hgreater), hswap ▸ hgreater,
    hunordered (fun h => hword h.1) _ (by simp), ?_, ?_⟩
  · rw [← Bool.not_eq_true, hself, Json.str.injEq]
    decide
  · have hpath : Path.parse "form.n" = .ok ⟨[.key "form", .key "n"]⟩ := by decide +kernel
    have hactual : Condition.actual ⟨"form.n", .greaterThan, some nine⟩ context = ten := by
      rw [Condition.actual_of_opens_eq_false _ (by decide), Context.lookup, hpath]
      rfl
    rw [hcondition context _ hactual rfl]
    exact hgreater

/-- The texts of not-a-number stand for a double as well, but not for one that is ordered.
Such a text equals itself as a document and is not at most itself, and it is neither smaller
nor greater than a number nor equal to it. -/
theorem comparisons_incoherent_of_nan :
    let context : Context := { form := Dict.ofList [("x", .str "nan")] }
    let holds (operator : Operator) (value : Json) :=
      Condition.holds ⟨"form.x", operator, some value⟩ context
    (Json.str "nan").asNumber?.isSome = true ∧ (Json.ofNat 1).asNumber?.isSome = true ∧
      ¬(holds .lessThanOrEqual (.str "nan") = true ↔
        holds .lessThan (.str "nan") = true ∨ holds .equals (.str "nan") = true) ∧
      ¬∃ operator ∈ [lessThan, equals, greaterThan], holds operator (.ofNat 1) = true := by
  decide +kernel

end Operator

end LivePage
