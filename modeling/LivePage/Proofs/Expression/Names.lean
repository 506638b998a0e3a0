import LivePage.Proofs.Expression.Context

/-!
# Names in expressions

The two parts of a context that hold entries under names of the page's own: the values
of the components and the form.  An entry is read by the name of its part, a dot, and its
own name, if that name stands in a path as it is.  No path ends in any other name, so the
expression with such a name reads something else or nothing, and no expression gives back
all that may be written under it.
-/

namespace LivePage.Context

/-- A part of a context that holds entries under names of the page's own. -/
inductive Table where
  | components
  | form
deriving DecidableEq

namespace Table

def root : Table → String
  | components => "components"
  | form => "form"

/-- The expression for an entry. -/
def expression : Table → String → String
  | components, name => "components." ++ name
  | form, name => "form." ++ name

theorem toList_expression (table : Table) (name : String) :
    (table.expression name).toList = table.root.toList ++ '.' :: name.toList := by
  cases table <;> simp [expression, root]

theorem isPlain_root (table : Table) : Path.IsPlain table.root := by
  cases table <;> exact ⟨by decide, by decide, by decide⟩

theorem root_ne_empty (table : Table) : table.root ≠ "" := by
  cases table <;> decide

end Table

/-- The entries of a part. -/
def table (context : Context) : Table → Dict Json
  | .components => context.components
  | .form => context.form

/-- The context with an entry written. -/
def put (context : Context) (name : String) (value : Json) : Table → Context
  | .components => { context with components := context.components.insert name value }
  | .form => { context with form := context.form.insert name value }

theorem get?_table_put (context : Context) (table : Table) (name other : String) (value : Json) :
    ((context.put name value table).table table).get? other =
      if name = other then some value else (context.table table).get? other := by
  cases table <;> exact Dict.get?_insert ..

theorem part?_root (context : Context) (table : Table) :
    context.part? table.root = some (.ofDict (context.table table)) := by
  cases table <;> rfl

/-- Writing an entry leaves the other parts of a context alone. -/
theorem part?_put {table : Table} {root : String} (hroot : root ≠ table.root) (context : Context)
    (name : String) (value : Json) :
    (context.put name value table).part? root = context.part? root := by
  cases table with
  | components =>
      rw [part?.eq_def, part?.eq_def]
      split
      case h_5 => exact absurd rfl hroot
      all_goals rfl
  | form =>
      rw [part?.eq_def, part?.eq_def]
      split
      case h_2 => exact absurd rfl hroot
      all_goals rfl

/-- A path into a part reads the entry that its second step names. -/
theorem resolve?_root (context : Context) (table : Table) (segment : Segment)
    (rest : List Segment) :
    context.resolve? ⟨.key table.root :: segment :: rest⟩ =
      ((context.table table).get? segment.name).bind (Json.walk? rest) := by
  rw [resolve?_key, part?_root]
  rfl

/-- A name that stands in a path as it is leads to its entry. -/
theorem lookup_expression (context : Context) (table : Table) {name : String}
    (hplain : Path.IsPlain name) (hne : name ≠ "") :
    context.lookup (table.expression name) = .ofOption ((context.table table).get? name) := by
  have hchars : Text.trim name.toList ≠ [] := by
    rw [hplain.trimmed]
    exact fun hempty => hne (String.toList_injective hempty)
  rw [lookup, Path.parse_root table.isPlain_root table.root_ne_empty
    (table.toList_expression name) hplain.noDot hplain.noBracket hchars, hplain.trimmed,
    String.ofList_toList]
  change Json.ofOption (context.resolve? ⟨[.key table.root, .key name]⟩) = _
  rw [resolve?_root, Segment.name]
  cases (context.table table).get? name <;> rfl

/-- An expression for an entry that is a path leads into its part. -/
theorem exists_of_parse_expression {table : Table} {name : String} {path : Path}
    (hparse : Path.parse (table.expression name) = .ok path) :
    ∃ segment rest, path.segments = .key table.root :: segment :: rest := by
  obtain ⟨rest, hrest, hsegments⟩ := Path.exists_of_parse_root table.isPlain_root
    table.root_ne_empty (table.toList_expression name) hparse
  cases rest with
  | nil => exact absurd rfl hrest
  | cons segment rest => exact ⟨segment, rest, hsegments⟩

variable {table : Table} {name : String} (hname : ¬(Path.IsPlain name ∧ name ≠ ""))

include hname

/-- No path has any other name for its last step. -/
theorem name_ne_of_getLast? {text : String} {path : Path} (hparse : Path.parse text = .ok path)
    {segment : Segment} (hlast : segment ∈ path.segments.getLast?) : segment.name ≠ name := by
  rintro rfl
  exact hname (Path.isSound_of_getLast? hparse segment hlast)

/-- The expression for an entry under any other name does not read that entry. -/
theorem lookup_put_expression (context : Context) (value : Json) :
    (context.put name value table).lookup (table.expression name) =
      context.lookup (table.expression name) := by
  rw [lookup, lookup]
  cases hparse : Path.parse (table.expression name) with
  | error fault => rfl
  | ok path =>
      obtain ⟨segment, rest, hsegments⟩ := exists_of_parse_expression hparse
      have hother : segment.name ≠ name := by
        intro heq
        obtain ⟨hdot, hbracket⟩ : Path.IsBare segment :=
          Path.isBare_of_mem_segments hparse segment (by simp [hsegments])
        rw [heq] at hdot hbracket
        obtain ⟨-, hboth⟩ := Path.segments_of_parse_root table.isPlain_root table.root_ne_empty
          (table.toList_expression name) hdot hbracket hparse
        exact name_ne_of_getLast? hname hparse (by simp_all) heq
      obtain ⟨segments⟩ := path
      obtain rfl : segments = _ := hsegments
      change Json.ofOption (resolve? _ ⟨_⟩) = Json.ofOption (resolve? _ ⟨_⟩)
      rw [resolve?_root, resolve?_root, get?_table_put, if_neg (Ne.symm hother)]

/-- What a path that does not end at an entry reads when that entry is written: what it read
before, or the part as a whole, or something inside the entry. -/
theorem resolve?_put_cases (context : Context) (table : Table) {text : String} {path : Path}
    (hparse : Path.parse text = .ok path) :
    (∀ value, (context.put name value table).resolve? path = context.resolve? path) ∨
      (∀ value, (context.put name value table).resolve? path =
        some (.ofDict ((context.put name value table).table table))) ∨
      ∃ next rest, ∀ value, (context.put name value table).resolve? path =
        value.walk? (next :: rest) := by
  have hlast : ∀ segment ∈ path.segments.getLast?, segment.name ≠ name :=
    fun _ hsegment => name_ne_of_getLast? hname hparse hsegment
  have hne := Path.segments_ne_nil hparse
  obtain ⟨segments⟩ := path
  match segments with
  | [] => exact absurd rfl hne
  | .index position :: rest => exact .inl fun value => rfl
  | .key root :: rest =>
      by_cases hroot : root = table.root
      · subst hroot
        match rest with
        | [] =>
            refine .inr (.inl fun value => ?_)
            rw [resolve?_key, part?_root]
            rfl
        | segment :: rest =>
            by_cases heq : segment.name = name
            · match rest with
              | [] => exact absurd heq (hlast segment rfl)
              | next :: rest =>
                  refine .inr (.inr ⟨next, rest, fun value => ?_⟩)
                  rw [resolve?_root, get?_table_put, if_pos heq.symm, Option.bind_some]
            · refine .inl fun value => ?_
              rw [resolve?_root, resolve?_root, get?_table_put, if_neg (Ne.symm heq)]
      · refine .inl fun value => ?_
        rw [resolve?_key, resolve?_key, part?_put hroot]

/-- What an expression gives once something is written under any other name: the same
whatever is written, or the part as a whole, or what is found on a walk into the value. -/
theorem lookup_put_cases (context : Context) (table : Table) (text : String) :
    (∃ found, ∀ value, (context.put name value table).lookup text = found) ∨
      (∀ value, (context.put name value table).lookup text =
        .ofDict ((context.put name value table).table table)) ∨
      ∃ next rest, ∀ value, (context.put name value table).lookup text =
        .ofOption (value.walk? (next :: rest)) := by
  cases hparse : Path.parse text with
  | error fault =>
      refine .inl ⟨.null, fun value => ?_⟩
      rw [lookup, hparse]
  | ok path =>
      have hlookup (value : Json) : (context.put name value table).lookup text =
          .ofOption ((context.put name value table).resolve? path) := by
        rw [lookup, hparse]
      rcases resolve?_put_cases hname context table hparse with hsame | hwhole | ⟨next, rest, hin⟩
      · exact .inl ⟨.ofOption (context.resolve? path), fun value => by rw [hlookup, hsame]⟩
      · exact .inr (.inl fun value => by rw [hlookup, hwhole]; rfl)
      · exact .inr (.inr ⟨next, rest, fun value => by rw [hlookup, hin]⟩)

/-- No expression gives back everything that may be written under any other name. -/
theorem exists_lookup_put_ne (context : Context) (table : Table) (text : String) :
    ∃ value, (context.put name value table).lookup text ≠ value := by
  rcases lookup_put_cases hname context table text with
    ⟨found, hsame⟩ | hwhole | ⟨next, rest, hin⟩
  · cases found with
    | null => exact ⟨.str "", by simp [hsame]⟩
    | bool | num | str | arr | obj => exact ⟨.null, by simp [hsame]⟩
  · refine ⟨.null, ?_⟩
    rw [hwhole]
    exact Json.noConfusion
  · -- there is nothing inside a text
    refine ⟨.str "", ?_⟩
    rw [hin]
    exact Json.noConfusion

omit hname in
/-- A key in front of a position keeps its blank, so there are expressions that read inside
the value of an entry that none reads as it is. -/
example : Path.parse "components.x [0]" = .ok ⟨[.key "components", .key "x ", .index 0]⟩ := by
  decide +kernel

end LivePage.Context
