import LivePage.Proofs.Page.Accepted
import LivePage.Proofs.Schedule.Loading

/-!
# Repeated bindings

A handler looks for the binding of a trigger from the front, so a binding behind another one
of its trigger is passed over.  Validation warns about exactly these bindings, although it
counts triggers and searches for nothing.  A page without them gives no warning and serves
every request as it did with them.
-/

namespace LivePage

namespace Component

/-- The place of the binding that a trigger fires. -/
def place? (component : Component) (trigger : Trigger) : Option Nat :=
  component.bindings.findIdx? fun binding => binding.trigger = trigger

/-- Whether the search for the trigger of a binding ends at another place than its own. -/
def isPassedOver (component : Component) (entry : Binding × Nat) : Bool :=
  component.place? entry.1.trigger != some entry.2

/-- The bindings that no trigger fires, in declared order. -/
def passedOver (component : Component) : List Binding :=
  (component.bindings.zipIdx.filter component.isPassedOver).map Prod.fst

/-- The bindings that a trigger fires, in declared order. -/
def reached (component : Component) : List Binding :=
  (component.bindings.zipIdx.filter (!component.isPassedOver ·)).map Prod.fst

def withoutPassedOver (component : Component) : Component :=
  { component with bindings := component.reached }

theorem binding?_eq_place? (id : String) (component : Component) (trigger : Trigger) :
    (Handler.ofComponent id component).binding? trigger =
      (component.place? trigger).bind (component.bindings[·]?) :=
  List.find?_eq_bind_findIdx?_getElem?

variable {component : Component} {before rest behind : List Binding} {binding : Binding}

/-- A binding is passed over if an earlier one has the same trigger. -/
theorem isPassedOver_iff (hbindings : component.bindings = before ++ binding :: behind) :
    component.isPassedOver (binding, before.length) = true ↔
      binding.trigger ∈ before.map Binding.trigger := by
  rw [isPassedOver, bne_iff_ne, place?, hbindings, List.findIdx?_append, List.mem_map]
  cases hfound : before.findIdx? fun earlier => earlier.trigger = binding.trigger with
  | none =>
      refine iff_of_false ?_ fun ⟨earlier, hearlier, hsame⟩ => ?_
      · simp [List.findIdx?_cons]
      · exact of_decide_eq_false (List.findIdx?_eq_none_iff.1 hfound earlier hearlier) hsame
  | some place =>
      obtain ⟨hplace, hsame, -⟩ := List.findIdx?_eq_some_iff_getElem.1 hfound
      refine iff_of_true ?_ ⟨_, List.getElem_mem hplace, of_decide_eq_true hsame⟩
      simp [Nat.ne_of_lt hplace]

/-- The next binding takes its place behind those before it. -/
theorem bindings_step (hbindings : component.bindings = before ++ binding :: rest) :
    component.bindings = (before ++ [binding]) ++ rest ∧
      (binding :: rest).zipIdx before.length =
        (binding, before.length) :: rest.zipIdx (before ++ [binding]).length := by
  rw [hbindings, List.append_assoc, List.singleton_append, List.zipIdx_cons, List.length_append]
  exact ⟨rfl, rfl⟩

/-- Validation counts the triggers of exactly the bindings that are passed over. -/
theorem repeatedTriggers_eq (hbindings : component.bindings = before ++ rest)
    {seen : List Trigger}
    (hseen : ∀ trigger, trigger ∈ seen ↔ trigger ∈ before.map Binding.trigger) :
    repeatedTriggers seen rest =
      ((rest.zipIdx before.length).filter component.isPassedOver).map (·.1.trigger) := by
  induction rest generalizing before seen with
  | nil => rfl
  | cons binding rest ih =>
      obtain ⟨hnext, hplaces⟩ := bindings_step hbindings
      rw [repeatedTriggers, hplaces]
      split
      · next hcontains =>
          have hearlier := (hseen _).1 (List.contains_iff_mem.1 hcontains)
          rw [List.filter_cons_of_pos ((isPassedOver_iff hbindings).2 hearlier), List.map_cons,
            ih hnext]
          simp only [List.map_append, List.mem_append, hseen, List.map_cons, List.map_nil,
            List.mem_singleton]
          exact fun trigger => (or_iff_left_of_imp fun heq => heq ▸ hearlier).symm
      · next hcontains =>
          have hfirst := mt (hseen _).2 (mt List.contains_iff_mem.2 hcontains)
          rw [List.filter_cons_of_neg (mt (isPassedOver_iff hbindings).1 hfirst)]
          refine ih hnext fun trigger => ?_
          simp [hseen, or_comm]

theorem repeatedTriggers_nil_eq (component : Component) :
    repeatedTriggers [] component.bindings = component.passedOver.map Binding.trigger := by
  rw [repeatedTriggers_eq (List.nil_append _).symm (by simp), passedOver, List.map_map]
  rfl

/-- No trigger of the bindings that are left is counted twice. -/
theorem repeatedTriggers_reached (hbindings : component.bindings = before ++ rest)
    {seen : List Trigger} (hseen : ∀ trigger ∈ seen, trigger ∈ before.map Binding.trigger) :
    repeatedTriggers seen
      (((rest.zipIdx before.length).filter (!component.isPassedOver ·)).map Prod.fst) = [] := by
  induction rest generalizing before seen with
  | nil => rfl
  | cons binding rest ih =>
      obtain ⟨hnext, hplaces⟩ := bindings_step hbindings
      have hlater {trigger : Trigger} (hmem : trigger ∈ before.map Binding.trigger) :
          trigger ∈ (before ++ [binding]).map Binding.trigger := by
        rw [List.map_append]
        exact List.mem_append_left _ hmem
      rw [hplaces]
      by_cases hearlier : binding.trigger ∈ before.map Binding.trigger
      · have hpassed := (isPassedOver_iff hbindings).2 hearlier
        rw [List.filter_cons_of_neg (by simp [hpassed])]
        exact ih hnext fun trigger hmem => hlater (hseen trigger hmem)
      · have hreached := mt (isPassedOver_iff hbindings).1 hearlier
        rw [List.filter_cons_of_pos (by simp [hreached]), List.map_cons, repeatedTriggers, if_neg]
        · refine ih hnext (List.forall_mem_cons.2 ⟨by simp, fun trigger hmem => ?_⟩)
          exact hlater (hseen trigger hmem)
        · exact fun hcontains => hearlier (hseen _ (List.contains_iff_mem.1 hcontains))

/-- The search for a trigger finds the same among the bindings that are left. -/
theorem find?_reached (hbindings : component.bindings = before ++ rest) {trigger : Trigger}
    (hbefore : trigger ∉ before.map Binding.trigger) :
    (((rest.zipIdx before.length).filter (!component.isPassedOver ·)).map Prod.fst).find?
        (fun binding => binding.trigger = trigger) =
      rest.find? fun binding => binding.trigger = trigger := by
  induction rest generalizing before with
  | nil => rfl
  | cons binding rest ih =>
      obtain ⟨hnext, hplaces⟩ := bindings_step hbindings
      rw [hplaces]
      by_cases hfound : binding.trigger = trigger
      · have hreached := mt (isPassedOver_iff hbindings).1 (hfound ▸ hbefore)
        rw [List.filter_cons_of_pos (by simp [hreached]), List.map_cons,
          List.find?_cons_of_pos (by simp [hfound]), List.find?_cons_of_pos (by simp [hfound])]
      · have hrest := ih hnext (by simpa [Ne.symm hfound] using hbefore)
        rw [List.find?_cons_of_neg (by simp [hfound]), ← hrest, List.filter_cons]
        split
        · rw [List.map_cons, List.find?_cons_of_neg (by simp [hfound])]
        · rfl

theorem binding?_withoutPassedOver (id : String) (component : Component) (trigger : Trigger) :
    (Handler.ofComponent id component.withoutPassedOver).binding? trigger =
      (Handler.ofComponent id component).binding? trigger :=
  find?_reached (List.nil_append _).symm List.not_mem_nil

/-- No warning is given about the bindings that are left. -/
theorem repeatedTriggers_withoutPassedOver (component : Component) :
    repeatedTriggers [] component.withoutPassedOver.bindings = [] :=
  repeatedTriggers_reached (List.nil_append _).symm nofun

end Component

namespace Page

/-- The page without the bindings that are passed over. -/
def withoutPassedOver (page : Page) : Page :=
  { page with components := page.components.mapValues Component.withoutPassedOver }

theorem get?_components_withoutPassedOver (page : Page) (id : String) :
    page.withoutPassedOver.components.get? id =
      (page.components.get? id).map Component.withoutPassedOver :=
  Dict.get?_mapValues ..

theorem keys_components_withoutPassedOver (page : Page) :
    page.withoutPassedOver.components.keys = page.components.keys :=
  List.map_map

theorem warningsOf_withoutPassedOver (page : Page) :
    warningsOf page.withoutPassedOver.components.entries = [] := by
  rw [warningsOf, List.flatMap_eq_nil_iff]
  intro entry hentry
  obtain ⟨⟨id, component⟩, -, rfl⟩ := List.mem_map.1 hentry
  dsimp only
  rw [component.repeatedTriggers_withoutPassedOver, List.map_nil]

/-- Without the bindings that are passed over an accepted page is accepted without a
warning. -/
theorem validate_withoutPassedOver {page : Page} (hvalid : page.validate.2 = none) :
    page.withoutPassedOver.validate = ([], none) := by
  obtain ⟨hsettings, hnamed, -⟩ := validate_eq_iff.1 (Prod.ext rfl hvalid)
  refine validate_eq_iff.2 ⟨hsettings, fun entry hentry => ?_, ?_⟩
  · obtain ⟨⟨id, component⟩, hdeclared, rfl⟩ := List.mem_map.1 hentry
    exact hnamed (id, component) hdeclared
  · exact (warningsOf_withoutPassedOver page).symm

/-- The warnings about an accepted page are those about its bindings that are passed over. -/
theorem warnings_eq {page : Page} (hvalid : page.validate.2 = none) :
    page.warnings = page.components.entries.flatMap fun (id, component) =>
      component.passedOver.map fun binding => neverFired id binding.trigger := by
  obtain ⟨-, -, hwarnings⟩ := validate_eq_iff.1 (Prod.ext rfl hvalid)
  refine hwarnings.trans (congrArg (page.components.entries.flatMap ·) (funext fun entry => ?_))
  dsimp only
  rw [Component.repeatedTriggers_nil_eq, List.map_map]
  rfl

end Page

namespace Session

theorem dispatch_withoutPassedOver (page : Page) (record : TriggerRecord) :
    (ofPage page.withoutPassedOver).dispatch record = (ofPage page).dispatch record := by
  cases hdeclared : page.components.get? record.component with
  | none =>
      simp only [dispatch, handler?_ofPage, page.get?_components_withoutPassedOver, hdeclared,
        Option.map_none]
  | some component =>
      have hleft : page.withoutPassedOver.components.get? record.component =
          some component.withoutPassedOver := by
        rw [page.get?_components_withoutPassedOver, hdeclared, Option.map_some]
      rw [dispatch_of_declared hdeclared, dispatch_of_declared hleft]
      have hbinding := component.binding?_withoutPassedOver record.component
      exact congrArg (Except.ok <$> ·)
        (Handler.handle_congr (by rfl) hbinding _ record.trigger record.payload)

/-- Every request is served as it is with the bindings that are passed over. -/
theorem serve_withoutPassedOver (page : Page) (request : Request) :
    (ofPage page.withoutPassedOver).serve request = (ofPage page).serve request := by
  have hdispatch (record : TriggerRecord) :
      (ofPage page.withoutPassedOver).serve (.dispatch record) =
        (ofPage page).serve (.dispatch record) := by
    rw [serve, serve, dispatch_withoutPassedOver]
  cases request with
  | dispatch record => exact hdispatch record
  | dispatchValue raw => simp only [serve, dispatchValue, dispatch_withoutPassedOver]
  | load =>
      have hall (ids : List String) :
          (ofPage page.withoutPassedOver).serveAll (loadRequests {} ids) =
            (ofPage page).serveAll (loadRequests {} ids) := by
        refine serveAll_congr fun request hrequest => ?_
        obtain ⟨id, -, rfl⟩ := List.mem_map.1 hrequest
        exact hdispatch _
      rw [serve, serve, load_eq page {}, load_eq page.withoutPassedOver {},
        page.keys_components_withoutPassedOver, hall]

theorem initialState_withoutPassedOver (page : Page) :
    initialState page.withoutPassedOver = initialState page :=
  List.foldl_map

end Session

namespace Page

/-- Warnings about repeated bindings are exact.  On every accepted page there is one for each
binding that the search for its trigger passes over, because an earlier binding of the
component has the same trigger, in the order of the ids and then as declared; and there is
no other.  The page without these bindings is accepted without a warning.  It starts in the
same state, and serves every request, and every sequence of requests on any machine, as the
page with them does. -/
theorem warnings_exact {page : Page} (hvalid : page.validate.2 = none) :
    let session := Session.ofPage page
    let other := Session.ofPage page.withoutPassedOver
    (page.warnings = page.components.entries.flatMap fun (id, component) =>
      component.passedOver.map fun binding => neverFired id binding.trigger) ∧
      (∀ (id : String) (component : Component),
        (∀ trigger, (Handler.ofComponent id component).binding? trigger =
          (component.place? trigger).bind (component.bindings[·]?)) ∧
        ∀ before binding behind, component.bindings = before ++ binding :: behind →
          (component.isPassedOver (binding, before.length) = true ↔
            ∃ earlier ∈ before, earlier.trigger = binding.trigger)) ∧
      page.withoutPassedOver.validate = ([], none) ∧
      Session.initialState other.page = Session.initialState session.page ∧
      other.engine = session.engine ∧
      (∀ request, other.serve request = session.serve request) ∧
      ∀ (σ : Type) (setting : Setting σ) (requests : List Session.Request) (machine : Machine σ),
        machine.serve setting other requests = machine.serve setting session requests := by
  intro session other
  have hserve : ∀ request, other.serve request = session.serve request :=
    Session.serve_withoutPassedOver page
  refine ⟨warnings_eq hvalid, fun id component => ⟨component.binding?_eq_place? id, ?_⟩,
    validate_withoutPassedOver hvalid, Session.initialState_withoutPassedOver page, rfl, hserve, ?_⟩
  · intro before binding behind hbindings
    rw [Component.isPassedOver_iff hbindings, List.mem_map]
  · intro σ setting requests machine
    rw [← Machine.run_serveAll, ← Machine.run_serveAll,
      Session.serveAll_congr fun request _ => hserve request]

/-- Of the two bindings for changes of a switch the second one gives a warning. -/
theorem warnings_exact_of_switch :
    let switch : Component := { bindings := Handler.switch.bindings }
    let page : Page := { components := Dict.ofList [("switch", switch)] }
    page.validate.2 = none ∧ page.warnings = [neverFired "switch" .onChange] ∧
      switch.passedOver.map Binding.actions = [[{ kind := .setLoading "panel" false }]] ∧
      page.withoutPassedOver.validate = ([], none) := by
  intro switch page
  have hvalid : page.validate.2 = none := by decide +kernel
  obtain ⟨hwarnings, -, haccepted, -⟩ := warnings_exact hvalid
  exact ⟨hvalid, hwarnings.trans rfl, rfl, haccepted⟩

end Page

end LivePage
