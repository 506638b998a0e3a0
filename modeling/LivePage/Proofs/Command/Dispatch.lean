import LivePage.Command.Program
import LivePage.Proofs.Dict
import LivePage.Proofs.Schedule.Crowd
import LivePage.Proofs.Schedule.Surroundings

/-!
# Dispatch of trigger records

Which documents a session refuses, and that a refusal does nothing.  Whether a
document is refused is decided by the declared components alone, whatever became of
their states, and a refused document leaves the whole machine as it was.  So a
program that is sent refused documents among other ones does what it does without
them, but for the lines in which it reports the refusals.
-/

namespace LivePage

namespace Machine

variable {σ : Type}

/-- What is made of the result of a run does not change how it goes. -/
theorem runUnless_map (setting : Setting σ) (stop : σ → Bool) (script : Script α) (f : α → β)
    (machine : Machine σ) :
    machine.runUnless setting stop (f <$> script) =
      ((machine.runUnless setting stop script).1.map f,
        (machine.runUnless setting stop script).2) := by
  change machine.runUnless setting stop (script.bind fun a => .done (f a)) = _
  induction script generalizing machine with
  | done result => rfl
  | perform effect next ih => exact ih _
  | observe next ih => exact ih _ machine
  | pause ms next ih =>
      rw [Script.bind, runUnless, runUnless]
      rcases machine.passUnless setting stop ms with ⟨_ | _, after⟩
      · exact ih after
      · rfl
  | request message next ih =>
      simp only [Script.bind, runUnless]
      rcases (machine.answer setting message).2.passUnless setting stop
        (machine.answer setting message).1.delay with ⟨_ | _, after⟩
      · exact ih _ after
      · rfl
  | start job next ih => exact ih _ _

end Machine

/-- Why a document is refused as a trigger record: it is none, or it names a component
that the page does not declare. -/
def Page.refusal? (page : Page) (raw : Json) : Option DispatchError :=
  match TriggerRecord.decode? raw with
  | none => some .invalidRecord
  | some record =>
      match page.components.get? record.component with
      | none => some (.unknownComponent record.component)
      | some _ => none

theorem Page.refusal?_eq_none_iff (page : Page) (raw : Json) :
    page.refusal? raw = none ↔
      ∃ record component, TriggerRecord.decode? raw = some record ∧
        page.components.get? record.component = some component := by
  cases hdecode : TriggerRecord.decode? raw with
  | none => simp [refusal?, hdecode]
  | some record =>
      cases hcomponent : page.components.get? record.component <;>
        simp [refusal?, hdecode, hcomponent]

/-- The handler of a declared component. -/
def Handler.ofComponent (id : String) (component : Component) : Handler where
  component := id
  bindings := component.bindings

namespace Session

/-- Exactly the declared components have a handler. -/
theorem handler?_ofPage (page : Page) (id : String) :
    (ofPage page).handler? id = (page.components.get? id).map (Handler.ofComponent id) :=
  page.components.get?_ofList_map Handler.ofComponent id

/-- A refused document is answered with its refusal, and nothing else is done. -/
theorem dispatchValue_of_refused {page : Page} {raw : Json} {error : DispatchError}
    (hrefused : page.refusal? raw = some error) :
    (ofPage page).dispatchValue raw = .done (.error error) := by
  cases hdecode : TriggerRecord.decode? raw with
  | none =>
      simp only [Page.refusal?, hdecode, Option.some.injEq] at hrefused
      simp only [dispatchValue, hdecode, hrefused, Script.pure_eq]
  | some record =>
      cases hcomponent : page.components.get? record.component with
      | none =>
          simp only [Page.refusal?, hdecode, hcomponent, Option.some.injEq] at hrefused
          simp only [dispatchValue, dispatch, handler?_ofPage, hdecode, hcomponent, hrefused,
            Option.map_none, Script.pure_eq]
      | some component =>
          simp only [Page.refusal?, hdecode, hcomponent, reduceCtorEq] at hrefused

/-- Any other document is handled by the handler of a declared component. -/
theorem dispatchValue_of_accepted {page : Page} {raw : Json}
    (haccepted : page.refusal? raw = none) :
    ∃ script : Script (Option Run), (ofPage page).dispatchValue raw = .ok <$> script := by
  obtain ⟨record, component, hdecode, hcomponent⟩ := (page.refusal?_eq_none_iff raw).1 haccepted
  simp only [dispatchValue, dispatch, handler?_ofPage, hdecode, hcomponent, Option.map_some]
  exact ⟨_, rfl⟩

/-- Whatever state a session is in, a document is answered with an error if it is
refused and in no other case, and the machine is then as it was. -/
theorem runUnless_dispatchValue_eq_error_iff {σ : Type} (page : Page) (setting : Setting σ)
    (stop : σ → Bool) (machine : Machine σ) (raw : Json) (error : DispatchError) :
    let dispatched := machine.runUnless setting stop ((ofPage page).dispatchValue raw)
    (dispatched.1 = some (.error error) ↔ page.refusal? raw = some error) ∧
      (dispatched.1 = some (.error error) → dispatched.2 = machine) := by
  cases hrefusal : page.refusal? raw with
  | some reason =>
      rw [dispatchValue_of_refused hrefusal]
      simp [Machine.runUnless]
  | none =>
      obtain ⟨script, hscript⟩ := dispatchValue_of_accepted hrefusal
      rw [hscript, Machine.runUnless_map]
      simp

end Session

/-! ## Reports of refusals -/

/-- The record reports that a trigger record was refused. -/
def LogRecord.isRefusal (record : LogRecord) : Bool :=
  record.target == programName && record.message == "Failed to handle trigger"

namespace Terminal

/-- The terminal without the reports of refusals. -/
def withoutRefusals (terminal : Terminal) : Terminal :=
  { terminal with log := terminal.log.filter (!·.isRefusal) }

theorem withoutRefusals_write (terminal : Terminal) {record : LogRecord}
    (hrecord : record.isRefusal = false) :
    (terminal.write record).withoutRefusals = terminal.withoutRefusals.write record := by
  rw [withoutRefusals, write, List.filter_append, List.filter_cons_of_pos (by simp [hrecord])]
  rfl

theorem withoutRefusals_write_refusal (terminal : Terminal) {record : LogRecord}
    (hrecord : record.isRefusal = true) :
    (terminal.write record).withoutRefusals = terminal.withoutRefusals := by
  rw [withoutRefusals, write, List.filter_append, List.filter_cons_of_neg (by simp [hrecord]),
    List.filter_nil, List.append_nil]
  rfl

theorem withoutRefusals_logModals (terminal : Terminal) :
    terminal.logModals.withoutRefusals = terminal.withoutRefusals.logModals := by
  have hkept : ((terminal.bus.drain modalHost).1.filterMap receiptRecord?).filter
      (!·.isRefusal) = (terminal.bus.drain modalHost).1.filterMap receiptRecord? := by
    refine List.filter_eq_self.2 fun record hrecord => ?_
    obtain ⟨receipt, -, hreceipt⟩ := List.mem_filterMap.1 hrecord
    cases receipt with
    | event event => rw [← Option.some.inj hreceipt]; rfl
    | lagged lost => rw [← Option.some.inj hreceipt]; rfl
    | nothing => cases hreceipt
  simp only [withoutRefusals, logModals, List.filter_append, hkept]

/-- What a terminal does for a page does not depend on reports of refusals. -/
theorem respects_withoutRefusals (dryRun : Bool) (base : Option Url) :
    (host dryRun base).Respects withoutRefusals where
  answer := fun page request terminal => by
    simp only [host]
    split
    · rw [answerDry, answerDry, withoutRefusals_write]
      rfl
    · simp only [answerUnsent]
      cases HttpClient.resolve base request.url with
      | ok url => rw [withoutRefusals_write]; rfl
      | error error => rfl
  call := fun call terminal => by
    cases call with
    | toast | push | openTab => exact (withoutRefusals_write terminal rfl).symm
    | modal event =>
        have hrecord : Console.published.isRefusal = false := rfl
        simp only [host, Terminal.call, ← withoutRefusals_write terminal hrecord]
        rfl
  notify := fun listener terminal => rfl
  rest := fun terminal => (withoutRefusals_logModals terminal).symm

end Terminal

/-! ## Programs and what they come across -/

/-- What a program comes across while it serves: a document arrives, a task has its turn,
time passes, the surroundings have their turn, or the program is interrupted while it waits. -/
inductive Occasion where
  | document (raw : Json)
  | turn (task : TaskId)
  | tick (ms : Nat)
  | rest
  | interrupt

/-- The occasion is no document that a page refuses. -/
def Occasion.isAccepted (page : Page) : Occasion → Bool
  | document raw => (page.refusal? raw).isNone
  | _ => true

namespace Program

variable {σ : Type}

/-- The report of a record that was refused. -/
def refused (raw : Json) (error : DispatchError) : LogRecord :=
  record .error "Failed to handle trigger"
    [("error", .shown error.message), ("record", .shown raw.compact)]

/-- The report of a record whose run was given up. -/
def aborted (raw : Json) : LogRecord :=
  record .warn "Action sequence aborted" [("record", .shown raw.compact)]

/-- The program with a map of its surroundings. -/
def mapHost (forget : σ → σ) (program : Program σ) : Program σ :=
  { program with machine := program.machine.mapHost forget }

/-- The program runs a page, in surroundings from which the reports of refusals can be taken
away without any other effect. -/
structure Serves (program : Program σ) (page : Page) (forget : σ → σ) : Prop where
  session : program.session = .ofPage page
  respects : program.setting.host.Respects forget
  refusal : ∀ record state, record.isRefusal = true →
    forget (program.journal record state) = forget state
  other : ∀ record state, record.isRefusal = false →
    forget (program.journal record state) = program.journal record (forget state)

/-- A page in a terminal is such a program. -/
theorem serves_ofPage (page : Page) (dryRun : Bool) (base : Option Url) (log : Log) :
    (ofPage page dryRun base log).Serves page Terminal.withoutRefusals where
  session := rfl
  respects := Terminal.respects_withoutRefusals dryRun base
  refusal := fun _ terminal => terminal.withoutRefusals_write_refusal
  other := fun _ terminal => terminal.withoutRefusals_write

/-- The run that a document leads to, if it leads to one that ends. -/
def run? (stop : σ → Bool) (program : Program σ) (raw : Json) : Option Run :=
  if program.interrupted then none
  else match (program.machine.runUnless program.setting stop
      (program.session.dispatchValue raw)).1 with
    | some (.ok run) => run
    | _ => none

/-- The program behind an occasion; nothing follows an interruption. -/
def occur (stop : σ → Bool) (program : Program σ) (occasion : Occasion) : Program σ :=
  if program.interrupted then program
  else match occasion with
    | .document raw => program.dispatch stop raw
    | .turn task =>
        { program with machine := (program.machine.pop task).runTask program.setting task }
    | .tick ms => { program with machine := program.machine.setClock (program.machine.clock + ms) }
    | .rest => { program with machine := program.machine.rest program.setting }
    | .interrupt => { program with interrupted := true }

/-- The program behind some occasions. -/
def serve (stop : σ → Bool) (program : Program σ) (occasions : List Occasion) : Program σ :=
  occasions.foldl (occur stop) program

/-- The run that an occasion leads to. -/
def ran? (stop : σ → Bool) (program : Program σ) : Occasion → Option Run
  | .document raw => program.run? stop raw
  | _ => none

/-- The runs that some occasions lead to, one after the other. -/
def runs (stop : σ → Bool) : Program σ → List Occasion → List Run
  | _, [] => []
  | program, occasion :: rest =>
      (program.ran? stop occasion).toList ++ runs stop (program.occur stop occasion) rest

variable {stop : σ → Bool} {forget : σ → σ} {page : Page} {program : Program σ} {raw : Json}

theorem Serves.write_other (hserves : program.Serves page forget) {record : LogRecord}
    (hrecord : record.isRefusal = false) :
    (program.write record).mapHost forget = (program.mapHost forget).write record := by
  simp only [mapHost, write, Machine.mapHost, hserves.other _ _ hrecord]

theorem Serves.write_refusal (hserves : program.Serves page forget) {record : LogRecord}
    (hrecord : record.isRefusal = true) :
    (program.write record).mapHost forget = program.mapHost forget := by
  simp only [mapHost, write, Machine.mapHost, hserves.refusal _ _ hrecord]

/-- What a program serves does not depend on the machine. -/
theorem Serves.withMachine (hserves : program.Serves page forget) (machine : Machine σ)
    (background : Background) (interrupted : Bool) :
    { program with machine, background, interrupted }.Serves page forget :=
  ⟨hserves.session, hserves.respects, hserves.refusal, hserves.other⟩

theorem Serves.afterRecord_ok (hserves : program.Serves page forget) (raw : Json)
    (run : Option Run) :
    (afterRecord raw program (.ok run)).mapHost forget =
      afterRecord raw (program.mapHost forget) (.ok run) := by
  cases run with
  | none => rfl
  | some run =>
      rw [afterRecord, afterRecord]
      split
      · rfl
      · rw [← hserves.write_other rfl]
        rfl

/-- A program serves the same page behind a dispatch. -/
theorem Serves.dispatch (hserves : program.Serves page forget) (stop : σ → Bool) (raw : Json) :
    (program.dispatch stop raw).Serves page forget := by
  rw [Program.dispatch, runScript]
  split
  · exact hserves
  · split
    · next result machine _ =>
        rw [afterRecord.eq_def]
        split
        · exact hserves.withMachine _ _ _
        · exact hserves.withMachine _ _ _
        · split <;> exact hserves.withMachine _ _ _
    · exact hserves.withMachine _ _ _

theorem Serves.occur (hserves : program.Serves page forget) (stop : σ → Bool)
    (occasion : Occasion) : (program.occur stop occasion).Serves page forget := by
  rw [Program.occur.eq_def]
  split
  · exact hserves
  · cases occasion with
    | document raw => exact hserves.dispatch stop raw
    | turn | tick | rest | interrupt => exact hserves.withMachine _ _ _

/-- Documents that arrive at once are dispatched one after the other. -/
theorem serve_documents (stop : σ → Bool) (program : Program σ) (documents : List Json) :
    program.serve stop (documents.map .document) = documents.foldl (dispatch stop) program := by
  rw [serve, List.foldl_map]
  congr 1
  funext program raw
  rw [occur, dispatch, runScript]
  split <;> rfl

/-- A refused document leads to no run, and leaves nothing but a report. -/
theorem dispatch_of_refused (stop : σ → Bool) (hsession : program.session = .ofPage page)
    (hgoesOn : program.interrupted = false) {error : DispatchError}
    (hrefused : page.refusal? raw = some error) :
    program.dispatch stop raw = program.write (refused raw error) ∧
      program.run? stop raw = none := by
  have hscript := Session.dispatchValue_of_refused hrefused
  rw [← hsession] at hscript
  have hnot : ¬program.interrupted = true := by simp [hgoesOn]
  rw [dispatch, runScript, run?, hscript, if_neg hnot, if_neg hnot]
  exact ⟨rfl, rfl⟩

/-- A record of a declared component is handled by the handler of the component, and the
tasks of its run join those in the background. -/
theorem dispatch_of_declared (hsession : program.session = .ofPage page)
    (hgoesOn : program.interrupted = false) {record : TriggerRecord} {component : Component}
    (hdecode : TriggerRecord.decode? raw = some record)
    (hcomponent : page.components.get? record.component = some component) :
    let handled := program.machine.runUnless program.setting stop
      ((Handler.ofComponent record.component component).handle (Session.ofPage page).engine
        record.trigger record.payload)
    let behind := { program with machine := handled.2 }
    (handled.1 = none →
        program.dispatch stop raw = { behind with interrupted := true } ∧
          program.run? stop raw = none) ∧
      (handled.1 = some none →
        program.dispatch stop raw = behind ∧ program.run? stop raw = none) ∧
      ∀ run, handled.1 = some (some run) →
        program.dispatch stop raw =
            { if run.success then behind else behind.write (aborted raw) with
              background := program.background.track handled.2 run } ∧
          program.run? stop raw = some run := by
  intro handled behind
  have hscript : program.session.dispatchValue raw =
      .ok <$> (Handler.ofComponent record.component component).handle (Session.ofPage page).engine
        record.trigger record.payload := by
    simp only [hsession, Session.dispatchValue, Session.dispatch, Session.handler?_ofPage, hdecode,
      hcomponent, Option.map_some]
  have hrun : program.machine.runUnless program.setting stop (program.session.dispatchValue raw) =
      (handled.1.map .ok, handled.2) := by
    rw [hscript, Machine.runUnless_map]
  have hnot : ¬program.interrupted = true := by simp [hgoesOn]
  rw [dispatch, runScript, run?, hrun, if_neg hnot, if_neg hnot]
  refine ⟨fun hhandled => ?_, fun hhandled => ?_, fun run hhandled => ?_⟩
  · rw [hhandled]
    exact ⟨rfl, rfl⟩
  · rw [hhandled]
    exact ⟨rfl, rfl⟩
  · rw [hhandled]
    refine ⟨?_, rfl⟩
    change afterRecord raw behind (.ok (some run)) = _
    rw [afterRecord]
    cases run.success <;> rfl

/-- A document that is not refused leads to the same in mapped surroundings. -/
theorem dispatch_mapHost (hserves : program.Serves page forget)
    (hstop : ∀ state, stop (forget state) = stop state) (haccepted : page.refusal? raw = none) :
    (program.mapHost forget).dispatch stop raw = (program.dispatch stop raw).mapHost forget ∧
      (program.mapHost forget).run? stop raw = program.run? stop raw := by
  obtain ⟨script, hscript⟩ := Session.dispatchValue_of_accepted haccepted
  rw [← hserves.session] at hscript
  have hrun := Machine.runUnless_mapHost hserves.respects hstop
    (program.session.dispatchValue raw) program.machine
  rw [hscript, Machine.runUnless_map] at hrun
  have hmapped : (program.mapHost forget).run? stop raw = program.run? stop raw := by
    simp only [run?, mapHost, hscript, hrun, Machine.runUnless_map]
  refine ⟨?_, hmapped⟩
  simp only [dispatch, runScript, mapHost, hscript, hrun, Machine.runUnless_map]
  split
  · rfl
  · rcases program.machine.runUnless program.setting stop script with ⟨_ | run, after⟩
    · rfl
    · exact ((hserves.withMachine after program.background program.interrupted).afterRecord_ok raw
        run).symm

/-- Whatever happens, but for documents that are refused, happens alike in mapped
surroundings. -/
theorem occur_of_accepted (hserves : program.Serves page forget)
    (hstop : ∀ state, stop (forget state) = stop state) {occasion : Occasion}
    (haccepted : occasion.isAccepted page = true) :
    (program.mapHost forget).occur stop occasion =
        (program.occur stop occasion).mapHost forget ∧
      (program.mapHost forget).ran? stop occasion = program.ran? stop occasion := by
  have hinterrupted : (program.mapHost forget).interrupted = program.interrupted := rfl
  rw [occur.eq_def, occur.eq_def, hinterrupted]
  cases occasion with
  | document raw =>
      obtain ⟨hdispatched, hrun⟩ :=
        dispatch_mapHost hserves hstop (Option.isNone_iff_eq_none.1 haccepted)
      refine ⟨?_, hrun⟩
      split
      · rfl
      · exact hdispatched
  | turn task =>
      have hturn := Machine.runTask_mapHost hserves.respects (program.machine.pop task) task
      refine ⟨?_, rfl⟩
      split
      · rfl
      · exact congrArg (fun machine => { program with machine }) hturn
  | rest =>
      have hrest := Machine.rest_mapHost hserves.respects program.machine
      refine ⟨?_, rfl⟩
      split
      · rfl
      · exact congrArg (fun machine => { program with machine }) hrest
  | tick | interrupt =>
      refine ⟨?_, rfl⟩
      split <;> rfl

/-- A document that is refused leads to nothing but a report. -/
theorem occur_of_not_accepted (hserves : program.Serves page forget) (stop : σ → Bool)
    {occasion : Occasion} (hrefused : occasion.isAccepted page = false) :
    (program.occur stop occasion).mapHost forget = program.mapHost forget ∧
      program.ran? stop occasion = none := by
  cases occasion with
  | document raw =>
      obtain ⟨error, herror⟩ := Option.isSome_iff_exists.1 (Option.isNone_eq_false_iff.1 hrefused)
      cases hgoesOn : program.interrupted with
      | true => simp [occur, ran?, run?, hgoesOn]
      | false =>
          obtain ⟨hdispatched, hrun⟩ :=
            dispatch_of_refused stop hserves.session hgoesOn herror
          refine ⟨?_, hrun⟩
          rw [occur, if_neg (by simp [hgoesOn]), hdispatched, hserves.write_refusal rfl]
  | turn | tick | rest | interrupt => cases hrefused

/-- Refused documents among other occasions make no difference but for the reports: two
programs that differ in reports alone still do so, and have led to the same runs. -/
theorem serve_accepted {other : Program σ} (hserves : program.Serves page forget)
    (hother : other.Serves page forget) (hstop : ∀ state, stop (forget state) = stop state)
    (hsame : program.mapHost forget = other.mapHost forget) (occasions : List Occasion) :
    (program.serve stop occasions).mapHost forget =
        (other.serve stop (occasions.filter (·.isAccepted page))).mapHost forget ∧
      program.runs stop occasions =
        other.runs stop (occasions.filter (·.isAccepted page)) := by
  induction occasions generalizing program other with
  | nil => exact ⟨hsame, rfl⟩
  | cons occasion rest ih =>
      have hnext := hserves.occur stop occasion
      cases haccepted : occasion.isAccepted page with
      | false =>
          obtain ⟨hafter, hran⟩ := occur_of_not_accepted hserves stop haccepted
          rw [List.filter_cons_of_neg (by simp [haccepted]), runs, hran]
          exact ih hnext hother (hafter.trans hsame)
      | true =>
          obtain ⟨hafter, hran⟩ := occur_of_accepted hserves hstop haccepted
          obtain ⟨hafterOther, hranOther⟩ := occur_of_accepted hother hstop haccepted
          have hsameNext : (program.occur stop occasion).mapHost forget =
              (other.occur stop occasion).mapHost forget := by
            rw [← hafter, ← hafterOther, hsame]
          obtain ⟨hend, hruns⟩ := ih hnext (hother.occur stop occasion) hsameNext
          rw [List.filter_cons_of_pos haccepted, runs, runs, hruns, ← hran, ← hranOther, hsame]
          exact ⟨hend, rfl⟩

/-- Bad records are isolated.  In whatever state a session of a page is, a document is
answered with an error exactly if it is no trigger record or names a component that
the page does not declare, and then the machine is as it was: the page, its
listeners, the tasks in the background and the surroundings.

A program that dispatches what arrives, in any surroundings and whatever its tasks do
meanwhile, only reports such a document.  It runs the handler of the component for any other
one, and the tasks of the run join those in the background.  So among any occasions it does,
but for the reports, what it does without the refused documents, and they lead to the same
runs.  Documents that are all there at once are such occasions, and a page in a terminal is
such a program. -/
theorem refused_records_isolated (page : Page) :
    (∀ {σ : Type} (setting : Setting σ) (stop : σ → Bool) (machine : Machine σ) (raw : Json),
      let dispatched := machine.runUnless setting stop ((Session.ofPage page).dispatchValue raw)
      ((∃ error, dispatched.1 = some (.error error)) ↔
          ¬∃ record component, TriggerRecord.decode? raw = some record ∧
            page.components.get? record.component = some component) ∧
        ∀ error, dispatched.1 = some (.error error) →
          page.refusal? raw = some error ∧ dispatched.2 = machine) ∧
    (∀ {σ : Type} (stop : σ → Bool) (program : Program σ) (raw : Json),
      program.session = .ofPage page → program.interrupted = false →
        (∀ error, page.refusal? raw = some error →
          program.dispatch stop raw = program.write (refused raw error) ∧
            program.run? stop raw = none) ∧
        ∀ record component, TriggerRecord.decode? raw = some record →
          page.components.get? record.component = some component →
            let handled := program.machine.runUnless program.setting stop
              ((Handler.ofComponent record.component component).handle
                (Session.ofPage page).engine record.trigger record.payload)
            let behind := { program with machine := handled.2 }
            (handled.1 = none →
                program.dispatch stop raw = { behind with interrupted := true } ∧
                  program.run? stop raw = none) ∧
              (handled.1 = some none →
                program.dispatch stop raw = behind ∧ program.run? stop raw = none) ∧
              ∀ run, handled.1 = some (some run) →
                program.dispatch stop raw =
                    { if run.success then behind else behind.write (aborted raw) with
                      background := program.background.track handled.2 run } ∧
                  program.run? stop raw = some run) ∧
    (∀ {σ : Type} (forget : σ → σ) (stop : σ → Bool) (program : Program σ)
      (occasions : List Occasion), program.Serves page forget →
        (∀ state, stop (forget state) = stop state) →
          (program.serve stop occasions).mapHost forget =
              (program.serve stop (occasions.filter (·.isAccepted page))).mapHost forget ∧
            program.runs stop occasions =
              program.runs stop (occasions.filter (·.isAccepted page))) ∧
    (∀ {σ : Type} (stop : σ → Bool) (program : Program σ) (documents : List Json),
      program.serve stop (documents.map .document) = documents.foldl (dispatch stop) program) ∧
    ∀ dryRun base log, (ofPage page dryRun base log).Serves page Terminal.withoutRefusals := by
  refine ⟨?_, ?_, ?_, serve_documents, serves_ofPage page⟩
  · intro σ setting stop machine raw dispatched
    have herror (error : DispatchError) :=
      Session.runUnless_dispatchValue_eq_error_iff page setting stop machine raw error
    refine ⟨?_, fun error hanswer => ⟨(herror error).1.1 hanswer, (herror error).2 hanswer⟩⟩
    rw [← page.refusal?_eq_none_iff raw, ← ne_eq, Option.ne_none_iff_exists']
    exact exists_congr fun error => (herror error).1
  · intro σ stop program raw hsession hgoesOn
    exact ⟨fun error hrefused => dispatch_of_refused stop hsession hgoesOn hrefused,
      fun record component hdecode hcomponent =>
        dispatch_of_declared hsession hgoesOn hdecode hcomponent⟩
  · intro σ forget stop program occasions hserves hstop
    exact serve_accepted hserves hserves hstop rfl occasions

/-- A log, and the replies that are still to come. -/
structure Uplink where
  log : Log := []
  replies : List HttpReply := []

/-- Every request takes five milliseconds, and is answered with the next of the replies. -/
def Uplink.host : Host Uplink where
  answer := fun _ _ uplink =>
    ({ delay := 5, reply := uplink.replies.headD (.error default) },
      { uplink with replies := uplink.replies.tail })
  call := fun _ uplink => uplink
  notify := fun _ uplink => uplink

def Uplink.withoutRefusals (uplink : Uplink) : Uplink :=
  { uplink with log := uplink.log.filter (!·.isRefusal) }

/-- A page with one component, on which a click starts a request; behind the answer the
component is set. -/
def clickPage : Page where
  components := Dict.ofList [("b", { bindings := [
    { trigger := .onClick
      actions := [
        { kind := .callApi default .get none none
          detached := true
          onSuccess := some [{ kind := .setValue "b" (.bool true) none }] }] }] })]

def clickProgram : Program Uplink where
  session := .ofPage clickPage
  setting := ⟨(Session.ofPage clickPage).engine, Uplink.host⟩
  machine := { world := {
    page := Session.initialState clickPage
    host := { replies := [.ok default] } } }
  journal := fun record uplink => { uplink with log := uplink.log ++ [record] }

def clickOn (component : String) : Json :=
  .obj [("component", .str component), ("trigger", .str "onClick")]

/-- A document that is no record, a click, and a click on nothing while the request of the
first one is on its way: the click is the only one that counts, and two lines tell of the
others. -/
theorem refused_records_isolated_of_click :
    let never := fun _ : Uplink => false
    let after := clickProgram.serve never [.document .null, .document (clickOn "b"), .turn 0,
      .document (clickOn "c"), .tick 5, .turn 0]
    let alone := clickProgram.serve never [.document (clickOn "b"), .turn 0, .tick 5, .turn 0]
    after.mapHost Uplink.withoutRefusals = alone.mapHost Uplink.withoutRefusals ∧
      (after.machine.world.page.component? "b").bind ComponentState.value = some (.bool true) ∧
      after.background.tasks = [0] ∧
      after.machine.world.host.log.length = 2 ∧ alone.machine.world.host.log.length = 0 := by
  intro never after alone
  have hserves : clickProgram.Serves clickPage Uplink.withoutRefusals :=
    { session := rfl
      respects := ⟨fun _ _ _ => rfl, fun _ _ => rfl, fun _ _ => rfl, fun _ => rfl⟩
      refusal := fun record uplink hrecord => by
        simp [clickProgram, Uplink.withoutRefusals, hrecord]
      other := fun record uplink hrecord => by
        simp [clickProgram, Uplink.withoutRefusals, hrecord] }
  obtain ⟨hend, -⟩ := (refused_records_isolated clickPage).2.2.1 Uplink.withoutRefusals never
    clickProgram [.document .null, .document (clickOn "b"), .turn 0, .document (clickOn "c"),
      .tick 5, .turn 0] hserves fun _ => rfl
  exact ⟨hend, rfl, by decide +kernel, by decide +kernel, by decide +kernel⟩

end Program

end LivePage
