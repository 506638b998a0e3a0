import LivePage.Proofs.Schedule.Stored

/-!
# Further fields

Further fields of components never get the name of a built-in one.  Documents give such
a name to the built-in field, and so do all changes of a page, whatever key they are
asked to write; so a reader of an encoded state finds the built-in field there.
-/

namespace LivePage

/-- The states and patches that come with the change were read from documents, or set
nothing but a value, as a component that reports a change does. -/
def StoreOp.FromDocuments : StoreOp → Prop
  | register _ initial => ∀ state ∈ initial, ∃ j, ComponentState.decode? j = some state
  | edit _ (.merge patch) =>
      (∃ j, ComponentState.decode? j = some patch) ∨ ∃ value, patch = .withValue value
  | _ => True

theorem StoreOp.FromDocuments.regular {op : StoreOp} (hop : op.FromDocuments) : op.Regular := by
  cases op with
  | register id initial =>
      intro state hstate
      obtain ⟨j, hdecode⟩ := hop state hstate
      exact (ComponentState.regular_of_decode? hdecode).1
  | edit id edit =>
      cases edit with
      | merge patch =>
          rcases hop with ⟨j, hdecode⟩ | ⟨value, rfl⟩
          · exact (ComponentState.regular_of_decode? hdecode).1
          · exact fun key _ => rfl
      | assign | filter | visibility | field => trivial
  | remove | setForm | mergeForm => trivial

namespace Crowd

variable {σ : Type}

/-- Further fields stay apart from the built-in ones.  If a page was read from a document,
and what others and listeners write to it comes from documents, then at every moment of
every schedule no further field of a component has the name of a built-in one.  So a
state is written with no key twice, and under the name of a built-in field a reader finds
that field. -/
theorem further_fields_stay_apart (setting : Setting σ) {j : Json} {page : Page}
    (hdecode : Page.decode? j = some page) {world : World σ}
    (hworld : world.page = Session.initialState page) {moves : List Move}
    (hlisteners : world.listeners.WriteOnly StoreOp.FromDocuments)
    (hwrites : ∀ ops, .write ops ∈ moves → ∀ op ∈ ops, op.FromDocuments)
    {id : String} {state : ComponentState}
    (hstate : ((fresh world).play setting moves).machine.world.page.component? id = some state) :
    (∀ name ∈ ComponentState.builtinNames, state.extra.contains name = false) ∧
      (state.members.map Prod.fst).Nodup ∧
      ∀ key, state.encode.member? key = state.field? key := by
  have hstart : world.page.Regular := by
    rw [hworld]
    exact (Session.initialState_of_decode? hdecode).1
  have hregular : state.Regular := by
    refine regular_play setting hstart (fun component listener hlistener op hop => ?_)
      (fun ops hops op hop => ?_) id state hstate
    · exact (hlisteners component listener hlistener op hop).regular
    · exact (hwrites ops hops op hop).regular
  refine ⟨fun name hname => ?_, ComponentState.nodup_keys_members hregular,
    ComponentState.member?_encode hregular⟩
  rw [Dict.contains, hregular name hname, Option.isSome_none]

/-- Somebody reports a value and writes an error, and actions write under the names of a
built-in and of a further field. -/
def namingMoves : List Move :=
  [.write [.edit "t" (.merge (.withValue .null)), .edit "t" (.field "error" (.str "late"))],
    .enter { actions := [{ kind := .setValue "t" (.bool false) (some "visible") },
      { kind := .setValue "t" (.str "on") (some "label") }] }]

/-- The component is hidden, and only the label is a further field. -/
theorem further_fields_stay_apart_of_naming :
    let world : World Nat := { page := Session.initialState clearedPage, host := 0 }
    ∃ state, ((fresh world).play .counting namingMoves).machine.world.page.component? "t" =
        some state ∧
      state.extra.keys = ["label"] ∧
      state.extra.contains "visible" = false ∧
      (state.members.map Prod.fst).Nodup ∧
      state.encode.member? "visible" = some (.bool false) ∧
      state.encode.member? "error" = some (.str "late") := by
  intro world
  have hdecode : Page.decode? (.obj [("components", .obj [("t", .obj [])])]) = some clearedPage :=
    rfl
  have hlisteners : world.listeners.WriteOnly StoreOp.FromDocuments := by
    intro component listener hlistener
    cases hlistener
  have hwrites : ∀ ops, .write ops ∈ namingMoves → ∀ op ∈ ops, op.FromDocuments := by
    intro ops hmem
    simp only [namingMoves, List.mem_cons, Move.write.injEq, List.not_mem_nil, or_false,
      reduceCtorEq] at hmem
    subst hmem
    exact List.forall_mem_cons.2 ⟨.inr ⟨.null, rfl⟩, List.forall_mem_singleton.2 trivial⟩
  have hstate : ((fresh world).play .counting namingMoves).machine.world.page.component? "t" =
      some { ComponentState.seed with
        value := some (.str "on"), visible := some false, error := some "late",
        extra := Dict.ofList [("label", .str "on")] } := by
    rfl
  obtain ⟨hapart, hnodup, hmember⟩ :=
    further_fields_stay_apart .counting hdecode rfl hlisteners hwrites hstate
  refine ⟨_, hstate, rfl, hapart "visible" (by decide), hnodup, ?_, ?_⟩
  · rw [hmember]
    rfl
  · rw [hmember]
    rfl

end Crowd

end LivePage
