import Mathlib.Data.List.Sort
import LivePage.Dict

/-!
# Look-ups of dictionaries

A dictionary is known by its look-ups: the entries are the pairs that they find, in
the one order that the keys leave.  So an equation between dictionaries is proved
key by key, and writing out the entries of a dictionary loses nothing.
-/

namespace LivePage.Dict

variable {α : Type u} {β : Type v}

theorem find?_eq_none_iff {key : String} {l : List (String × α)} :
    find? key l = none ↔ key ∉ l.map Prod.fst := by
  induction l with
  | nil => simp [find?]
  | cons entry rest ih =>
      obtain ⟨k, a⟩ := entry
      by_cases heq : k = key
      · simp [find?, heq]
      · simpa [find?, heq, Ne.symm heq] using ih

theorem nodup_keys (d : Dict α) : (d.entries.map Prod.fst).Nodup := by
  rw [List.Nodup, List.pairwise_map]
  exact d.ascending.imp fun hlt => String.ne_of_lt hlt

/-- Among entries with different keys the first one at a key is the only one. -/
theorem find?_eq_some_iff {key : String} {a : α} {l : List (String × α)}
    (hnodup : (l.map Prod.fst).Nodup) : find? key l = some a ↔ (key, a) ∈ l := by
  refine ⟨mem_of_find?, fun hmem => ?_⟩
  induction l with
  | nil => exact absurd hmem List.not_mem_nil
  | cons entry rest ih =>
      obtain ⟨k, b⟩ := entry
      obtain ⟨hfresh, hrest⟩ := List.nodup_cons.1 hnodup
      rw [find?]
      rcases List.mem_cons.1 hmem with heq | hmem
      · obtain ⟨rfl, rfl⟩ := Prod.mk.inj heq
        rw [if_pos rfl]
      · have hne : k ≠ key := fun heq => hfresh (List.mem_map.2 ⟨_, hmem, heq.symm⟩)
        rw [if_neg hne, ih hrest hmem]

theorem get?_eq_some_iff {d : Dict α} {key : String} {a : α} :
    d.get? key = some a ↔ (key, a) ∈ d.entries :=
  find?_eq_some_iff d.nodup_keys

/-- Dictionaries with the same look-ups are equal. -/
theorem ext_get? {d e : Dict α} (h : ∀ key, d.get? key = e.get? key) : d = e := by
  have hperm : d.entries.Perm e.entries := by
    refine (List.perm_ext_iff_of_nodup d.nodup_keys.of_map e.nodup_keys.of_map).2 ?_
    rintro ⟨key, a⟩
    rw [← get?_eq_some_iff, ← get?_eq_some_iff, h]
  apply ext_entries
  refine hperm.eq_of_pairwise (fun _ _ _ _ hlt hgt => ?_) d.ascending e.ascending
  exact absurd (String.lt_trans hlt hgt) (String.lt_irrefl _)

/-- Entries with different keys are all there after they were written. -/
theorem get?_insertAll_of_nodup (d : Dict α) {entries : List (String × α)}
    (hnodup : (entries.map Prod.fst).Nodup) (key : String) :
    (d.insertAll entries).get? key = (find? key entries).or (d.get? key) := by
  induction entries generalizing d with
  | nil => rfl
  | cons entry rest ih =>
      obtain ⟨k, a⟩ := entry
      obtain ⟨hfresh, hrest⟩ := List.nodup_cons.1 hnodup
      calc
        (d.insertAll ((k, a) :: rest)).get? key =
            (find? key rest).or ((d.insert k a).get? key) := ih (d.insert k a) hrest
        _ = (find? key ((k, a) :: rest)).or (d.get? key) := by
          rw [get?_insert, find?]
          split
          · next heq =>
              subst heq
              rw [find?_eq_none_iff.2 hfresh, Option.none_or, Option.some_or]
          · rfl

theorem get?_ofList_of_nodup {entries : List (String × α)}
    (hnodup : (entries.map Prod.fst).Nodup) (key : String) :
    (ofList entries).get? key = find? key entries := by
  rw [ofList, get?_insertAll_of_nodup _ hnodup]
  exact Option.or_none

/-- What the second dictionary holds counts, else what the first one does. -/
theorem get?_union (d e : Dict α) (key : String) :
    (d.union e).get? key = (e.get? key).or (d.get? key) :=
  get?_insertAll_of_nodup d e.nodup_keys key

theorem mem_entries_insertAll {d : Dict α} {entries : List (String × α)} {entry : String × α}
    (hmem : entry ∈ (d.insertAll entries).entries) : entry ∈ d.entries ∨ entry ∈ entries := by
  induction entries generalizing d with
  | nil => exact .inl hmem
  | cons first rest ih =>
      rcases ih hmem with hmem | hmem
      · rcases mem_put hmem with heq | hmem
        · exact .inr (heq ▸ List.mem_cons_self)
        · exact .inl hmem
      · exact .inr (List.mem_cons_of_mem _ hmem)

theorem mem_entries_ofList {entries : List (String × α)} {entry : String × α}
    (hmem : entry ∈ (ofList entries).entries) : entry ∈ entries :=
  (mem_entries_insertAll hmem).resolve_left List.not_mem_nil

@[simp]
theorem get?_ofList_nil (key : String) : (ofList ([] : List (String × α))).get? key = none :=
  rfl

/-- Of two lists of entries the second one counts, else the first. -/
@[simp]
theorem get?_ofList_append (l m : List (String × α)) (key : String) :
    (ofList (l ++ m)).get? key = ((ofList m).get? key).or ((ofList l).get? key) := by
  induction m generalizing l with
  | nil => rw [List.append_nil, get?_ofList_nil, Option.none_or]
  | cons entry rest ih =>
      have hsplit : l ++ entry :: rest = (l ++ [entry]) ++ rest := by simp
      have hlast (front : List (String × α)) : (ofList (front ++ [entry])).get? key =
          if entry.1 = key then some entry.2 else (ofList front).get? key := by
        rw [get?_ofList, List.foldl_append, ← get?_ofList]
        rfl
      have hfirst : (ofList (entry :: rest)).get? key =
          ((ofList rest).get? key).or ((ofList [entry]).get? key) := ih [entry]
      rw [hsplit, ih, hlast, hfirst, ← List.nil_append [entry], hlast, get?_ofList_nil,
        Option.or_assoc]
      congr 1
      split <;> rfl

@[simp]
theorem get?_ofList_cons (entry : String × α) (rest : List (String × α)) (key : String) :
    (ofList (entry :: rest)).get? key =
      ((ofList rest).get? key).or (if entry.1 = key then some entry.2 else none) :=
  get?_ofList_append [entry] rest key

/-- The entries of a dictionary make the dictionary. -/
@[simp]
theorem ofList_entries (d : Dict α) : ofList d.entries = d :=
  ext_get? fun key => get?_ofList_of_nodup d.nodup_keys key

theorem find?_map (f : String → α → β) (key : String) (l : List (String × α)) :
    find? key (l.map fun entry => (entry.1, f entry.1 entry.2)) = (find? key l).map (f key) := by
  induction l with
  | nil => rfl
  | cons entry rest ih =>
      obtain ⟨k, a⟩ := entry
      rw [List.map_cons, find?, find?]
      split
      · next heq => rw [heq, Option.map_some]
      · exact ih

theorem get?_mapValues (f : α → β) (d : Dict α) (key : String) :
    (d.mapValues f).get? key = (d.get? key).map f :=
  find?_map (fun _ => f) key d.entries

/-- Values that are made from the entries of a dictionary stand under their keys. -/
theorem get?_ofList_map (d : Dict α) (f : String → α → β) (key : String) :
    (ofList (d.entries.map fun entry => (entry.1, f entry.1 entry.2))).get? key =
      (d.get? key).map (f key) := by
  have hnodup : ((d.entries.map fun entry => (entry.1, f entry.1 entry.2)).map Prod.fst).Nodup := by
    rw [List.map_map]
    exact d.nodup_keys
  rw [get?_ofList_of_nodup hnodup, find?_map, get?]

theorem get?_filterKeys (d : Dict α) (p : String → Bool) (key : String) :
    (d.filterKeys p).get? key = if p key then d.get? key else none := by
  apply Option.ext
  intro a
  rw [get?_eq_some_iff, filterKeys, List.mem_filter, ← get?_eq_some_iff]
  by_cases hp : p key <;> simp [hp]

end LivePage.Dict
