/-!
# Dictionaries

Finite maps from texts, kept as a list of entries in ascending key order.  A key
occurs at most once, so two dictionaries with the same look-ups are the same
dictionary.
-/

namespace LivePage

/-- A map from texts to `α`; the keys ascend by code point. -/
structure Dict (α : Type u) where
  entries : List (String × α)
  ascending : entries.Pairwise (fun a b => a.1 < b.1) := by exact .nil

namespace Dict

variable {α : Type u} {β : Type v}

/-- The dictionary without entries. -/
def empty : Dict α where
  entries := []

instance : EmptyCollection (Dict α) := ⟨empty⟩

instance : Inhabited (Dict α) := ⟨empty⟩

instance [BEq α] : BEq (Dict α) := ⟨fun d e => d.entries == e.entries⟩

/-- The value at a key in a list of entries: the first one there. -/
def find? (key : String) : List (String × α) → Option α
  | [] => none
  | (k, a) :: rest => if k = key then some a else find? key rest

/-- Puts an entry at its place among ascending ones. -/
def put (key : String) (a : α) : List (String × α) → List (String × α)
  | [] => [(key, a)]
  | (k, b) :: rest =>
      if key < k then (key, a) :: (k, b) :: rest
      else if key = k then (key, a) :: rest
      else (k, b) :: put key a rest

theorem mem_put {key : String} {a : α} {l : List (String × α)} {e : String × α}
    (h : e ∈ put key a l) : e = (key, a) ∨ e ∈ l := by
  induction l with
  | nil => simpa [put] using h
  | cons x rest ih =>
      obtain ⟨k, b⟩ := x
      simp only [put] at h
      split at h
      · simpa using h
      · split at h
        · rcases List.mem_cons.1 h with h | h <;> simp [h]
        · rcases List.mem_cons.1 h with h | h
          · simp [h]
          · rcases ih h with h | h <;> simp [h]

theorem ascending_put (key : String) (a : α) {l : List (String × α)}
    (h : l.Pairwise (fun a b => a.1 < b.1)) :
    (put key a l).Pairwise (fun a b => a.1 < b.1) := by
  induction l with
  | nil => simp [put]
  | cons x rest ih =>
      obtain ⟨k, b⟩ := x
      obtain ⟨hk, hrest⟩ := List.pairwise_cons.1 h
      simp only [put]
      split
      · next hlt =>
          refine List.pairwise_cons.2 ⟨fun e he => ?_, h⟩
          rcases List.mem_cons.1 he with rfl | he
          · exact hlt
          · exact String.lt_trans hlt (hk e he)
      · next hlt =>
          split
          · next heq =>
              subst heq
              exact List.pairwise_cons.2 ⟨hk, hrest⟩
          · next hne =>
              refine List.pairwise_cons.2 ⟨fun e he => ?_, ih hrest⟩
              rcases mem_put he with rfl | he
              · exact Decidable.byContradiction fun hn =>
                  hne (String.le_antisymm (String.not_lt.1 hn) (String.not_lt.1 hlt))
              · exact hk e he

theorem mem_of_find? {key : String} {a : α} {l : List (String × α)}
    (h : find? key l = some a) : (key, a) ∈ l := by
  induction l with
  | nil => simp [find?] at h
  | cons entry rest ih =>
      obtain ⟨k, b⟩ := entry
      rw [find?] at h
      split at h
      · next heq =>
          rw [← heq, ← Option.some.inj h]
          exact List.mem_cons_self
      · exact List.mem_cons_of_mem _ (ih h)

/-- Writes an entry; the value before it is lost. -/
def insert (d : Dict α) (key : String) (a : α) : Dict α where
  entries := put key a d.entries
  ascending := ascending_put key a d.ascending

def get? (d : Dict α) (key : String) : Option α :=
  find? key d.entries

/-- Whether a key has a value. -/
def contains (d : Dict α) (key : String) : Bool :=
  (d.get? key).isSome

/-- Removes the entry at a key, if there is one. -/
def erase (d : Dict α) (key : String) : Dict α where
  entries := d.entries.filter fun e => e.1 ≠ key
  ascending := d.ascending.sublist List.filter_sublist

/-- Writes all entries of a list, one after the other. -/
def insertAll (d : Dict α) (entries : List (String × α)) : Dict α :=
  entries.foldl (fun d e => d.insert e.1 e.2) d

/-- The entries of a list; of two entries with one key the later counts. -/
def ofList (entries : List (String × α)) : Dict α :=
  (empty : Dict α).insertAll entries

/-- Writes all entries of the second dictionary over the first. -/
def union (d e : Dict α) : Dict α :=
  d.insertAll e.entries

def keys (d : Dict α) : List String :=
  d.entries.map Prod.fst

def size (d : Dict α) : Nat :=
  d.entries.length

def isEmpty (d : Dict α) : Bool :=
  d.entries.isEmpty

/-- Changes every value and keeps the keys. -/
def mapValues (f : α → β) (d : Dict α) : Dict β where
  entries := d.entries.map fun e => (e.1, f e.2)
  ascending := by
    have h := d.ascending
    rw [List.pairwise_map]
    exact h.imp fun h => h

/-- Keeps the entries whose key satisfies a test. -/
def filterKeys (p : String → Bool) (d : Dict α) : Dict α where
  entries := d.entries.filter fun e => p e.1
  ascending := d.ascending.sublist List.filter_sublist

theorem find?_put (key other : String) (a : α) (l : List (String × α))
    (h : l.Pairwise (fun a b => a.1 < b.1)) :
    find? other (put key a l) = if key = other then some a else find? other l := by
  induction l with
  | nil => simp [put, find?]
  | cons x rest ih =>
      obtain ⟨k, b⟩ := x
      obtain ⟨hk, hrest⟩ := List.pairwise_cons.1 h
      simp only [put]
      split
      · next hlt => simp [find?]
      · next hlt =>
          split
          · next heq =>
              subst heq
              by_cases ho : key = other <;> simp [find?, ho]
          · next hne =>
              by_cases hko : k = other
              · have : key ≠ other := fun h => hne (h.trans hko.symm)
                simp [find?, hko, this]
              · simp [find?, hko, ih hrest]

/-- A written key reads as written, and every other key as before. -/
theorem get?_insert (d : Dict α) (key other : String) (a : α) :
    (d.insert key a).get? other = if key = other then some a else d.get? other :=
  find?_put key other a d.entries d.ascending

/-- An erased key has no value, and every other key the one it had. -/
theorem get?_erase (d : Dict α) (key other : String) :
    (d.erase key).get? other = if key = other then none else d.get? other := by
  change find? other (d.entries.filter fun entry => entry.1 ≠ key) = _
  rw [get?]
  induction d.entries with
  | nil => simp [find?]
  | cons entry rest ih =>
      obtain ⟨k, a⟩ := entry
      by_cases hkey : k = key
      · rw [List.filter_cons_of_neg (by simp [hkey]), ih]
        split
        · rfl
        · next hne => rw [find?, if_neg (hkey ▸ hne)]
      · rw [List.filter_cons_of_pos (by simp [hkey]), find?, ih]
        by_cases hother : k = other
        · rw [if_pos hother, if_neg (fun h => hkey (hother.trans h.symm)), find?, if_pos hother]
        · rw [if_neg hother, find?, if_neg hother]

theorem get?_insertAll (d : Dict α) (entries : List (String × α)) (key : String) :
    (d.insertAll entries).get? key =
      entries.foldl (fun found e => if e.1 = key then some e.2 else found) (d.get? key) := by
  induction entries generalizing d with
  | nil => rfl
  | cons e rest ih =>
      rw [insertAll, List.foldl_cons, ← insertAll, ih, get?_insert, List.foldl_cons]

/-- The value at a key is the last one written for it. -/
theorem get?_ofList (entries : List (String × α)) (key : String) :
    (ofList entries).get? key =
      entries.foldl (fun found e => if e.1 = key then some e.2 else found) none :=
  get?_insertAll empty entries key

@[simp]
theorem get?_empty (key : String) : (∅ : Dict α).get? key = none := rfl

/-- Dictionaries with the same entries are equal. -/
theorem ext_entries {d e : Dict α} (h : d.entries = e.entries) : d = e := by
  cases d
  cases e
  simpa using h

end Dict

end LivePage
