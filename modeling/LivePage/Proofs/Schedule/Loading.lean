import LivePage.Proofs.Schedule.Requests

/-!
# Loading

A page that loads gives every declared component its turn.  That is no other way to the
handlers than the one that trigger records take: a page loads as if a record of a load were
dispatched to one component after the other.  Each turn begins with the page as the turns
before have left it, and takes place whatever became of them.
-/

namespace LivePage

namespace Session

/-- The record of a load. -/
def loadRecord (payload : Payload) (id : String) : TriggerRecord where
  component := id
  trigger := .onLoad
  payload := payload

/-- The requests that fire `onLoad` for some components by themselves. -/
def loadRequests (payload : Payload) (ids : List String) : List Request :=
  ids.map fun id => .dispatch (loadRecord payload id)

/-- The run that a reply tells of, if something was fired. -/
def Reply.run? : Reply → Option Run
  | dispatched (.ok run) => run
  | _ => none

/-- The runs that replies tell of, each with the component that was asked for. -/
def firedRuns (ids : List String) (replies : List Reply) : List (String × Run) :=
  (ids.zip replies).filterMap fun (id, reply) => reply.run?.map (id, ·)

/-- The entries of the handlers are the declared components. -/
theorem entries_handlers (page : Page) :
    (ofPage page).handlers.entries =
      page.components.entries.map fun (id, component) =>
        (id, Handler.ofComponent id component) := by
  have hascending : (page.components.entries.map fun entry =>
      (entry.1, Handler.ofComponent entry.1 entry.2)).Pairwise (fun a b => a.1 < b.1) := by
    rw [List.pairwise_map]
    exact page.components.ascending
  exact congrArg Dict.entries (Dict.ofList_entries ⟨_, hascending⟩)

theorem serve_loadRecord {session : Session} {id : String} {handler : Handler}
    (hhandler : session.handler? id = some handler) (payload : Payload) :
    session.serve (.dispatch (loadRecord payload id)) =
      (fun run => .dispatched (.ok run)) <$> handler.onLoad session.engine := by
  simp only [serve, dispatch, loadRecord, hhandler, Handler.handle, Functor.map_map]

theorem loadAll_eq {session : Session} {entries : List (String × Handler)}
    (hentries : ∀ entry ∈ entries, session.handler? entry.1 = some entry.2) (payload : Payload) :
    loadAll session.engine entries =
      firedRuns (entries.map Prod.fst) <$>
        session.serveAll (loadRequests payload (entries.map Prod.fst)) := by
  induction entries with
  | nil => rfl
  | cons entry rest ih =>
      obtain ⟨id, handler⟩ := entry
      obtain ⟨hfirst, hrest⟩ := List.forall_mem_cons.1 hentries
      have hfired (run : Option Run) (replies : List Reply) :
          firedRuns (id :: rest.map Prod.fst) (.dispatched (.ok run) :: replies) =
            run.toList.map (id, ·) ++ firedRuns (rest.map Prod.fst) replies := by
        cases run <;> rfl
      simp only [loadAll, loadRequests, List.map_cons, serveAll, serve_loadRecord hfirst]
      rw [ih hrest]
      simp [map_eq_pure_bind, hfired, loadRequests, Script.bind_assoc, Script.bind]

/-- Loading is dispatching a record of a load to every declared component, in ascending order
of ids, and leaving out what did not fire. -/
theorem load_eq (page : Page) (payload : Payload) :
    (ofPage page).load =
      firedRuns page.components.keys <$>
        (ofPage page).serveAll (loadRequests payload page.components.keys) := by
  have hkeys : (ofPage page).handlers.entries.map Prod.fst = page.components.keys := by
    rw [entries_handlers, List.map_map]
    rfl
  rw [load, ← hkeys]
  exact loadAll_eq (fun entry hentry => Dict.get?_eq_some_iff.2 hentry) payload

end Session

/-! ## Registered components -/

/-- The state that a component starts with. -/
def Component.startState (component : Component) : ComponentState :=
  match component.initialState with
  | none => .seed
  | some initial => ComponentState.seed.merge initial

theorem PageState.component?_register_eq (state : PageState) (id other : String)
    (component : Component) :
    (state.register id component.initialState).component? other =
      (state.component? other).or (if id = other then some component.startState else none) := by
  rw [register.eq_def]
  cases hold : state.component? id with
  | some there =>
      dsimp only
      split
      · next heq => rw [← heq, hold, Option.some_or]
      · rw [Option.or_none]
  | none =>
      change (state.components.insert id component.startState).get? other = _
      rw [Dict.get?_insert]
      split
      · next heq => rw [← heq, hold, Option.none_or]
      · rw [Option.or_none]
        rfl

theorem PageState.component?_foldl_register (state : PageState)
    (components : List (String × Component)) (id : String) :
    (components.foldl (fun state (id, component) => state.register id component.initialState)
        state).component? id =
      (state.component? id).or ((Dict.find? id components).map Component.startState) := by
  induction components generalizing state with
  | nil => simp [Dict.find?]
  | cons entry rest ih =>
      obtain ⟨k, component⟩ := entry
      rw [List.foldl_cons, ih, component?_register_eq, Dict.find?, Option.or_assoc]
      congr 1
      split
      · rfl
      · rfl

/-- At first exactly the declared components are there, each in the state it starts with. -/
theorem Session.component?_initialState (page : Page) (id : String) :
    (initialState page).component? id =
      (page.components.get? id).map Component.startState := by
  rw [initialState, PageState.component?_foldl_register]
  rfl

/-! ## What a load does in its turn -/

namespace Handler

/-- The binding that a load runs on a page: the first one for loads, if it is enabled and its
condition holds. -/
def loadBinding? (handler : Handler) (page : PageState) : Option Binding :=
  (handler.binding? .onLoad).filter fun binding =>
    binding.enabled && Condition.allows binding.condition (page.snapshot (event .onLoad {}))

/-- A load on a machine: the actions of its binding run on a snapshot of the page as it is
then, or nothing is done. -/
def runLoad {σ : Type} (setting : Setting σ) (handler : Handler) (machine : Machine σ) :
    Option Run × Machine σ :=
  match handler.loadBinding? machine.world.page with
  | some binding =>
      let context := machine.world.page.snapshot (event .onLoad {})
      let (run, machine) := machine.run setting (setting.engine.runList 0 context binding.actions)
      (some run, machine)
  | none => (none, machine)

theorem run_handle_onLoad {σ : Type} (setting : Setting σ) (handler : Handler)
    (payload : Payload) (machine : Machine σ) :
    machine.run setting (handler.handle setting.engine .onLoad payload) =
      handler.runLoad setting machine := by
  cases hbinding : handler.binding? .onLoad with
  | none =>
      rw [runLoad, loadBinding?, hbinding]
      exact (becomes_done setting hbinding payload machine).foreground
  | some binding =>
      -- a load writes nothing, and sees nothing of what came with it
      have hcontext : machine.world.page.snapshot (event .onLoad {}) =
          (handler.written .onLoad payload machine.world.page).snapshot (event .onLoad payload) :=
        rfl
      have hboth := (becomes_of_isFirst setting (binding?_eq_some_iff.1 hbinding) payload machine
        hcontext).foreground
      rw [runLoad, loadBinding?, hbinding, hboth, Option.filter_some]
      by_cases hruns : binding.enabled = true ∧
          Condition.allows binding.condition (machine.world.page.snapshot (event .onLoad {})) = true
      · rw [if_pos hruns, if_pos (Bool.and_eq_true_iff.2 hruns), Machine.run_map]
        rfl
      · rw [if_neg hruns, if_neg (mt Bool.and_eq_true_iff.1 hruns)]
        rfl

end Handler

namespace Session

theorem length_serve {σ : Type} (setting : Setting σ) (session : Session)
    (requests : List Request) (machine : Machine σ) :
    (machine.serve setting session requests).1.length = requests.length := by
  induction requests generalizing machine with
  | nil => rfl
  | cons request rest ih => simp [Machine.serve, ih]

theorem firedRuns_append {before behind : List String} {earlier later : List Reply}
    (hlength : before.length = earlier.length) :
    firedRuns (before ++ behind) (earlier ++ later) =
      firedRuns before earlier ++ firedRuns behind later := by
  rw [firedRuns, List.zip_append hlength, List.filterMap_append]
  rfl

/-- The reply to the record of a load. -/
theorem run_serve_loadRecord {σ : Type} (page : Page) (host : Host σ) {id : String}
    {component : Component} (hdeclared : page.components.get? id = some component)
    (payload : Payload) (machine : Machine σ) :
    let setting : Setting σ := ⟨(ofPage page).engine, host⟩
    let own := (Handler.ofComponent id component).runLoad setting machine
    machine.run setting ((ofPage page).serve (.dispatch (loadRecord payload id))) =
      (.dispatched (.ok own.1), own.2) := by
  intro setting own
  have hrecord : page.components.get? (loadRecord payload id).component = some component :=
    hdeclared
  rw [serve, dispatch_of_declared hrecord, Machine.run_map, Machine.run_map]
  have hown := Handler.run_handle_onLoad setting (.ofComponent id component) payload machine
  rw [show setting.engine = (ofPage page).engine from rfl] at hown
  simp only [loadRecord, hown, own]

/-- Loading a page in any state, in any surroundings, is the same as dispatching a record of a
load to every declared component one after the other, in ascending order of ids, and leaving
out what did not fire.  When the page is new all declared components are there in the states
they start with.  In its turn a component runs its binding for loads if the binding is enabled
and its condition holds, on a snapshot of the page as the earlier ones left it; whether their
runs succeeded makes no other difference. -/
theorem load_eq_dispatches {σ : Type} (page : Page) (host : Host σ) (machine : Machine σ)
    (payload : Payload) :
    let session := ofPage page
    let setting : Setting σ := ⟨session.engine, host⟩
    let ids := page.components.keys
    let served := machine.serve setting session (loadRequests payload ids)
    ids.Pairwise (· < ·) ∧
      session.load = firedRuns ids <$> session.serveAll (loadRequests payload ids) ∧
      machine.run setting session.load = (firedRuns ids served.1, served.2) ∧
      (∀ id, (initialState page).component? id =
        (page.components.get? id).map Component.startState) ∧
      ∀ before id behind component, ids = before ++ id :: behind →
        page.components.get? id = some component →
          let earlier := machine.serve setting session (loadRequests payload before)
          let own := (Handler.ofComponent id component).runLoad setting earlier.2
          let later := own.2.serve setting session (loadRequests payload behind)
          machine.run setting session.load =
            (firedRuns before earlier.1 ++ own.1.toList.map (id, ·) ++ firedRuns behind later.1,
              later.2) := by
  intro session setting ids served
  have hload : machine.run setting session.load = (firedRuns ids served.1, served.2) := by
    rw [load_eq page payload, Machine.run_map, Machine.run_serveAll]
  refine ⟨?_, load_eq page payload, hload, component?_initialState page, ?_⟩
  · exact List.pairwise_map.2 page.components.ascending
  · intro before id behind component hids hdeclared earlier own later
    have hlength : before.length = earlier.1.length := by
      rw [length_serve, loadRequests, List.length_map]
    have hown : earlier.2.run setting (session.serve (.dispatch (loadRecord payload id))) =
        (.dispatched (.ok own.1), own.2) :=
      run_serve_loadRecord page host hdeclared payload earlier.2
    have hserved : served = (earlier.1 ++ .dispatched (.ok own.1) :: later.1, later.2) := by
      simp only [served, hids, loadRequests, List.map_append, List.map_cons, Machine.serve_append,
        Machine.serve]
      simp only [earlier, later, loadRequests] at hown ⊢
      rw [hown]
    rw [hload, hserved, hids, firedRuns_append hlength, List.append_assoc]
    congr 2
    cases own.1 <;> rfl

/-- A page whose table loads only where its chart has told it to. -/
def chartPage : Page where
  components := Dict.ofList
    [("chart", { bindings := [{
        trigger := .onLoad
        actions := [{ kind := .setValue "table" (.bool true) none }, { kind := .unknown }] }] }),
      ("list", {}),
      ("table", { bindings := [{
        trigger := .onLoad
        condition := some { field := "components.table", operator := .isTrue }
        actions := [{ kind := .refresh "table" }] }] })]

/-- The chart tells the table and fails, the list has nothing to load, and the table loads. -/
theorem load_eq_dispatches_of_chart :
    let machine : Machine Nat := { world := { page := initialState chartPage, host := 0 } }
    let setting : Setting Nat := ⟨(ofPage chartPage).engine, Setting.counting.host⟩
    (machine.run setting (ofPage chartPage).load).1.map (fun (id, run) => (id, run.success)) =
      [("chart", false), ("table", true)] := by
  intro machine setting
  obtain ⟨-, -, -, -, hturn⟩ :=
    load_eq_dispatches chartPage Setting.counting.host machine {}
  rw [hturn ["chart", "list"] "table" [] _ (by decide) rfl]
  decide +kernel

end Session

end LivePage
