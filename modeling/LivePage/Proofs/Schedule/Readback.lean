import LivePage.Proofs.Page.Accepted
import LivePage.Proofs.Schedule.Writes
import LivePage.Proofs.Store.Values
import LivePage.Run.Session

/-!
# Values read back

Whatever runs and tasks do to a page, and in whatever order, expressions see of every
component the value that was written to it last, and of the form what was written last to
each entry.  This is so for all names that stand in a path as they are.  Of the entries under
other names, which a page may well have, no expression gives back all that is written to
them.
-/

namespace LivePage

/-- A changed value is written to the component. -/
theorem Handler.exists_onChange (handler : Handler) (engine : Engine) (payload : Payload) :
    ∃ op, handler.onChange engine payload =
        .perform (.store op) (handler.fire engine .onChange payload) ∧
      op.newValue? handler.component = some payload.value :=
  ⟨_, rfl, StoreOp.newValue?_edit ..⟩

/-- Setting a value writes it to the component, and to the entry of the form that is named. -/
theorem Engine.exists_setValue (engine : Engine) (context : Context) (id : String) (json : Json)
    (field : Option String) :
    (∃ op, .store op ∈ engine.effects context (.setValue id json field) ∧
        op.newValue? id = some (json.interpolate context)) ∧
      ∀ name ∈ field, ∃ op, .store op ∈ engine.effects context (.setValue id json field) ∧
        op.newEntry? name = some (json.interpolate context) := by
  cases field with
  | none =>
      exact ⟨⟨_, List.mem_cons_self, StoreOp.newValue?_edit ..⟩, fun name hname => by cases hname⟩
  | some field =>
      refine ⟨⟨_, List.mem_cons_self, StoreOp.newValue?_edit ..⟩, ?_⟩
      rintro name ⟨⟩
      exact ⟨_, List.mem_cons_of_mem _ List.mem_cons_self, if_pos rfl⟩

namespace Crowd

variable {σ : Type}

/-- Which names read back what was written.  The page of a crowd comes to be by one write
after the other, and behind each of them a snapshot shows what was written last: the value
of every component of a valid page under its id, and every entry of the form under its name,
if the name stands in a path as it is and is not empty.  Changes, actions that set a value,
and patches are such writes.  The expression with any other name gives what it gave before
something was written under that name, and no expression gives back all that may be written
there: it always gives the same, or the whole of the components or of the form, or only what
is found on a walk into the value. -/
theorem names_read_back (setting : Setting σ) {page : Page} (hvalid : page.validate.2 = none)
    (world : World σ) (moves : List Move) (event : Event) :
    let crowd := (fresh world).play setting moves
    crowd.machine.world.page = world.page.applyAll (crowd.writes world.listeners) ∧
      (∀ before op behind, before ++ op :: behind <+: crowd.writes world.listeners →
        let context := (world.page.applyAll (before ++ op :: behind)).snapshot event
        (∀ id ∈ page.components.keys, Path.IsPlain id → ∀ value, op.newValue? id = some value →
            (∀ later ∈ behind, later.LeavesValue id) →
              context.lookup ("components." ++ id) = value) ∧
          ∀ name, Path.IsPlain name → name ≠ "" → ∀ value, op.newEntry? name = some value →
            (∀ later ∈ behind, later.newEntry? name = none) →
              context.lookup ("form." ++ name) = value) ∧
      (∀ (handler : Handler) payload, ∃ op,
        handler.onChange setting.engine payload =
            .perform (.store op) (handler.fire setting.engine .onChange payload) ∧
          op.newValue? handler.component = some payload.value) ∧
      (∀ context id json field,
        let effects := setting.engine.effects context (.setValue id json field)
        (∃ op, .store op ∈ effects ∧ op.newValue? id = some (json.interpolate context)) ∧
          ∀ name ∈ field, ∃ op, .store op ∈ effects ∧
            op.newEntry? name = some (json.interpolate context)) ∧
      (∀ id patch, (StoreOp.edit id (.merge patch)).newValue? id = patch.value) ∧
      ∀ (table : Context.Table) name, ¬(Path.IsPlain name ∧ name ≠ "") → ∀ context : Context,
        (∀ value, (context.put name value table).lookup (table.expression name) =
          context.lookup (table.expression name)) ∧
        ∀ text, (∃ value, (context.put name value table).lookup text ≠ value) ∧
          ((∃ found, ∀ value, (context.put name value table).lookup text = found) ∨
            (∀ value, (context.put name value table).lookup text =
              .ofDict ((context.put name value table).table table)) ∨
            ∃ next rest, ∀ value, (context.put name value table).lookup text =
              .ofOption (value.walk? (next :: rest))) := by
  refine ⟨page_play setting world moves, fun before op behind hfront => ⟨?_, ?_⟩, ?_, ?_, ?_, ?_⟩
  · intro id hid hplain value hvalue hbehind
    exact world.page.lookup_component event hplain (Page.ne_empty_of_validate hvalid hid) hvalue
      hbehind
  · intro name hplain hne value hvalue hbehind
    exact world.page.lookup_form event hplain hne hvalue hbehind
  · exact fun handler payload => handler.exists_onChange setting.engine payload
  · exact fun context id json field => setting.engine.exists_setValue context id json field
  · exact fun id patch => StoreOp.newValue?_edit ..
  · intro table name hname context
    exact ⟨context.lookup_put_expression hname, fun text =>
      ⟨context.exists_lookup_put_ne hname table text, context.lookup_put_cases hname table text⟩⟩

/-- A page on which an order is written. -/
def orderPage : Page where
  components := Dict.ofList [("amount", {}), ("total", {})]

/-- Somebody writes an amount, and an action sets the total and puts it into the form. -/
def orderMoves : List Move :=
  [.write [.edit "amount" (.merge (.withValue (.str "12")))],
    .enter { actions := [{ kind := .setValue "total" (.str "24") (some "sum") }] }]

/-- The amount, the total and the sum are read back as they were written. -/
theorem names_read_back_of_order :
    let world : World Nat := { page := Session.initialState orderPage, host := 0 }
    let crowd := (fresh world).play .counting orderMoves
    let context := crowd.machine.world.page.snapshot {}
    orderPage.validate.2 = none ∧ context.lookup "components.amount" = .str "12" ∧
      context.lookup "components.total" = .str "24" ∧ context.lookup "form.sum" = .str "24" := by
  intro world crowd context
  have hvalid : orderPage.validate.2 = none := rfl
  have hwrites : crowd.writes world.listeners =
      [.edit "amount" (.merge (.withValue (.str "12"))),
        .edit "total" (.assign (.str "24") (some "sum")), .setForm "sum" (.str "24")] := rfl
  have hfront {ops : List StoreOp} (hops : crowd.writes world.listeners = ops) :
      ops <+: crowd.writes world.listeners := by rw [hops]
  obtain ⟨hpage, hread, -⟩ := names_read_back .counting hvalid world orderMoves {}
  have hcontext : context = (world.page.applyAll (crowd.writes world.listeners)).snapshot {} :=
    congrArg (PageState.snapshot · {}) hpage
  rw [hcontext, hwrites]
  have hplain : Path.IsPlain "amount" ∧ Path.IsPlain "total" ∧ Path.IsPlain "sum" :=
    ⟨⟨by decide, by decide, by decide⟩, ⟨by decide, by decide, by decide⟩,
      ⟨by decide, by decide, by decide⟩⟩
  refine ⟨hvalid, ?_, ?_, ?_⟩
  · refine (hread [] _ _ (hfront hwrites)).1 "amount" (by decide) hplain.1 (.str "12") rfl ?_
    simp [StoreOp.LeavesValue, StoreOp.newValue?, StoreOp.edit?]
  · refine (hread [_] _ _ (hfront hwrites)).1 "total" (by decide) hplain.2.1 (.str "24") rfl ?_
    simp [StoreOp.LeavesValue, StoreOp.newValue?, StoreOp.edit?]
  · refine (hread [_, _] _ [] (hfront hwrites)).2 "sum" hplain.2.2 (by decide) (.str "24") rfl ?_
    simp

/-- A page with a component whose id has a dot in it. -/
def dottedPage : Page where
  components := Dict.ofList [("a", {}), ("a.b", {})]

/-- The expression for the id with the dot reads from the value of the other component. -/
theorem names_read_back_fails_of_dot :
    let ops : List StoreOp := [.edit "a" (.merge (.withValue (.obj [("b", .bool false)]))),
      .edit "a.b" (.merge (.withValue (.bool true)))]
    let page := (Session.initialState dottedPage).applyAll ops
    dottedPage.validate.2 = none ∧ "a.b" ∈ dottedPage.components.keys ∧
      page.HasValue "a.b" (.bool true) ∧
      (page.snapshot {}).lookup "components.a.b" = .bool false := by
  intro ops page
  have hpath : Path.parse "components.a.b" =
      .ok ⟨[.key "components", .key "a", .key "b"]⟩ := by decide +kernel
  refine ⟨rfl, by decide, ⟨_, rfl, rfl⟩, ?_⟩
  rw [Context.lookup, hpath]
  rfl

end Crowd

end LivePage
