import LivePage.Proofs.Expression.Context

/-!
# Positions as keys

Where a step leads hangs on its name alone.  The name is the key of a member, and the
position of an item is the one that the name writes, since the numeral of a position reads
as that position.  So a position in brackets and the key that is its numeral lead to the
same place, in a document of any shape, in a dictionary and in a context.
-/

namespace LivePage

namespace Segment

/-- The step with a position turned into the key that is its numeral. -/
def dotted : Segment → Segment
  | key name => key name
  | index position => key (Numeral.text position.toNat)

@[simp]
theorem name_dotted (segment : Segment) : segment.dotted.name = segment.name := by
  cases segment <;> rfl

/-- The position of a step is the one that its name writes. -/
theorem position?_eq (segment : Segment) :
    segment.position? = Numeral.position? segment.name.toList := by
  cases segment with
  | key name => rfl
  | index position =>
      rw [name, Numeral.text, String.toList_ofList]
      exact (Numeral.position?_eq_some_iff.2 (Numeral.names_digits position)).symm

end Segment

namespace Json

/-- Two steps lead to the same place in every document exactly if they have one name. -/
theorem step?_eq_iff {segment other : Segment} :
    (∀ j : Json, j.step? segment = j.step? other) ↔ segment.name = other.name := by
  constructor
  · intro hstep
    -- The object with one member under the first name tells the names apart.
    have hfind : (obj [(segment.name, null)]).step? segment = some null := by
      rw [step?, Dict.find?, if_pos rfl]
    rw [hstep, step?, Dict.find?] at hfind
    split at hfind
    · next hname => exact hname
    · cases hfind
  · intro hname j
    cases j with
    | obj members => rw [step?, step?, hname]
    | arr items => rw [step?, step?, segment.position?_eq, other.position?_eq, hname]
    | _ => rfl

/-- Paths of the same names lead to the same place. -/
theorem walk?_congr {segments others : List Segment}
    (hnames : segments.map Segment.name = others.map Segment.name) (j : Json) :
    j.walk? segments = j.walk? others := by
  induction segments generalizing others j with
  | nil => rw [List.map_eq_nil_iff.1 hnames.symm]
  | cons segment rest ih =>
      cases others with
      | nil => cases hnames
      | cons other others =>
          obtain ⟨hname, hrest⟩ := List.cons.inj hnames
          rw [walk?, walk?, step?_eq_iff.2 hname j]
          congr 1
          funext next
          exact ih hrest next

end Json

theorem Context.resolve?_congr {segments others : List Segment}
    (hnames : segments.map Segment.name = others.map Segment.name) (context : Context) :
    context.resolve? ⟨segments⟩ = context.resolve? ⟨others⟩ := by
  cases segments with
  | nil => rw [List.map_eq_nil_iff.1 hnames.symm]
  | cons segment rest =>
      have hothers : others ≠ [] := by
        rintro rfl
        cases hnames
      rw [resolve?_eq_walk? context (List.cons_ne_nil segment rest),
        resolve?_eq_walk? context hothers]
      exact Json.walk?_congr hnames context.encode

namespace Path

/-- The steps with the positions in some places turned into keys. -/
def dottedAt (chosen : Nat → Bool) (segments : List Segment) : List Segment :=
  segments.mapIdx fun i segment => if chosen i then segment.dotted else segment

theorem map_name_dottedAt (chosen : Nat → Bool) (segments : List Segment) :
    (dottedAt chosen segments).map Segment.name = segments.map Segment.name := by
  apply List.ext_getElem?
  intro i
  rw [List.getElem?_map, List.getElem?_map, dottedAt, List.getElem?_mapIdx, Option.map_map]
  congr 1
  funext segment
  rw [Function.comp_apply]
  split
  · exact segment.name_dotted
  · rfl

/-- Positions in brackets and behind dots are interchangeable.  Whichever positions of a path
are turned into the keys that are their numerals, the path leads to the same place or to
none: in a document, in a dictionary and in a context. -/
theorem dotted_positions (chosen : Nat → Bool) (segments : List Segment) :
    (∀ j : Json, j.walk? (dottedAt chosen segments) = j.walk? segments) ∧
      (∀ d : Dict Json, d.walk? (dottedAt chosen segments) = d.walk? segments) ∧
      ∀ context : Context,
        context.resolve? ⟨dottedAt chosen segments⟩ = context.resolve? ⟨segments⟩ := by
  have hnames := map_name_dottedAt chosen segments
  refine ⟨Json.walk?_congr hnames, fun d => ?_, Context.resolve?_congr hnames⟩
  rw [Dict.walk?_eq, Dict.walk?_eq]
  exact Json.walk?_congr hnames (.ofDict d)

/-- A position that is left in brackets picks an item, and one that is written as a key a
member. -/
example :
    let path := [Segment.key "rows", .index 0, .index 1]
    let rows := Json.arr [.obj [("1", .bool true)]]
    dottedAt (· == 2) path = [.key "rows", .index 0, .key "1"] ∧
      (Json.obj [("rows", rows)]).walk? (dottedAt (· == 2) path) = some (.bool true) :=
  ⟨rfl, rfl⟩

end Path

end LivePage
