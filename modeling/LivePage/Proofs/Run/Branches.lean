import Mathlib.Data.List.Nodup
import LivePage.Proofs.Run.Account

/-!
# Requests and branches

Which action of a tree asks, and which branch runs behind the reply.  An account
keeps every action at its own place, so what lies below a place is told by the
action at that place alone, and no place comes twice.  From that, the law of one
action holds at every action of every run.
-/

namespace LivePage

namespace Context

/-- What expressions see of an answer. -/
structure SeesAnswer (context : Context) (answer : HttpResponse) : Prop where
  success : context.lookup "response.success" = .bool true
  data : context.lookup "response.data" = answer.data
  status : context.lookup "response.status" = .ofNat answer.status

/-- What expressions see of a failure: neither data nor a status. -/
structure SeesRefusal (context : Context) (error : HttpError) : Prop where
  success : context.lookup "response.success" = .bool false
  error : context.lookup "response.error" = .str error.message
  data : context.lookup "response.data" = .null
  status : context.lookup "response.status" = .null

theorem lookup_response (context : Context) (response : Response) {text name : String}
    (hpath : Path.parse text = .ok ⟨[.key "response", .key name]⟩) :
    (context.withResponse response).lookup text =
      .ofOption (response.encode.walk? [.key name]) := by
  simp [lookup, hpath, resolve?, Path.root, Path.rest, withResponse]

theorem parse_success :
    Path.parse "response.success" = .ok ⟨[.key "response", .key "success"]⟩ := by
  decide +kernel

theorem parse_data :
    Path.parse "response.data" = .ok ⟨[.key "response", .key "data"]⟩ := by
  decide +kernel

theorem parse_status :
    Path.parse "response.status" = .ok ⟨[.key "response", .key "status"]⟩ := by
  decide +kernel

theorem parse_error :
    Path.parse "response.error" = .ok ⟨[.key "response", .key "error"]⟩ := by
  decide +kernel

theorem seesAnswer_answered (context : Context) (answer : HttpResponse) :
    (context.answered answer).SeesAnswer answer := by
  constructor
  · rw [answered, lookup_response _ _ parse_success, Response.encode, Json.walk?_ofMembers]
    simp [Dict.get?_ofList, Response.ok, Json.member, Json.ofOption]
  · rw [answered, lookup_response _ _ parse_data, Response.encode, Json.walk?_ofMembers]
    simp [Dict.get?_ofList, Response.ok, Json.member, Json.ofOption]
  · rw [answered, lookup_response _ _ parse_status, Response.encode, Json.walk?_ofMembers]
    simp [Dict.get?_ofList, Response.ok, Json.member, Json.ofOption]

/-- Nothing of an earlier response shows behind a failure. -/
theorem seesRefusal_refused (context : Context) (error : HttpError) :
    (context.refused error).SeesRefusal error := by
  constructor
  · rw [refused, lookup_response _ _ parse_success, Response.encode, Json.walk?_ofMembers]
    simp [Dict.get?_ofList, Response.failed, Json.member, Json.ofOption]
  · rw [refused, lookup_response _ _ parse_error, Response.encode, Json.walk?_ofMembers]
    simp [Dict.get?_ofList, Response.failed, Json.member, Json.ofOption]
  · rw [refused, lookup_response _ _ parse_data, Response.encode, Json.walk?_ofMembers]
    simp [Dict.get?_ofList, Response.failed, Json.member, Json.ofOption]
  · rw [refused, lookup_response _ _ parse_status, Response.encode, Json.walk?_ofMembers]
    simp [Dict.get?_ofList, Response.failed, Json.member, Json.ofOption]

end Context

namespace Entry

/-- The entries below a place. -/
def below (place : Place) (entries : List Entry) : List Entry :=
  entries.filter (place.isPrefixOf ·.place)

@[simp]
theorem below_append (place : Place) (first second : List Entry) :
    below place (first ++ second) = below place first ++ below place second :=
  List.filter_append ..

theorem below_eq_self {place : Place} {entries : List Entry}
    (hall : ∀ entry ∈ entries, place <+: entry.place) : below place entries = entries :=
  List.filter_eq_self.2 fun entry hentry => List.isPrefixOf_iff_prefix.2 (hall entry hentry)

theorem below_eq_nil {place : Place} {entries : List Entry}
    (hnone : ∀ entry ∈ entries, ¬ place <+: entry.place) : below place entries = [] :=
  List.filter_eq_nil_iff.2 fun entry hentry hunder =>
    hnone entry hentry (List.isPrefixOf_iff_prefix.1 hunder)

theorem below_cons_of_not_prefix {place : Place} {entry : Entry} {entries : List Entry}
    (hnot : ¬ place <+: entry.place) : below place (entry :: entries) = below place entries := by
  rw [below, List.filter_cons_of_neg (by simpa using hnot)]
  rfl

theorem below_below {place lower : Place} (hunder : place <+: lower) (entries : List Entry) :
    below lower (below place entries) = below lower entries := by
  rw [below, below, below, List.filter_filter]
  apply List.filter_congr
  intro entry _
  by_cases hlower : lower <+: entry.place
  · simp [hlower, hunder.trans hlower]
  · simp [hlower]

end Entry

namespace Engine

/-- An entry of a list or a branch tells of an action below one of its items. -/
def WithinItems (place : Place) (index : Nat) (actions : List Action) (entry : Entry) : Prop :=
  ∃ offset way, entry.place = place ++ .item (index + offset) :: way ∧
    (actions[offset]?).bind (Action.descend? way) = some entry.action

theorem WithinItems.cons {place : Place} {index : Nat} {action : Action} {rest : List Action}
    {entry : Entry} (hwithin : WithinItems place (index + 1) rest entry) :
    WithinItems place index (action :: rest) entry := by
  obtain ⟨offset, way, hplace, haction⟩ := hwithin
  refine ⟨offset + 1, way, ?_, by simpa using haction⟩
  rw [hplace, Nat.add_right_comm, Nat.add_assoc]

mutual

/-- Every entry of an action tells of the action that stands at its place. -/
theorem ActionAccount.within {engine : Engine} {place : Place} {depth : Nat} {context : Context}
    {action : Action} {task : Option TaskId} {entries : List Entry} {outcome : Outcome}
    (haccount : engine.ActionAccount place depth context action task entries outcome) :
    ∀ entry ∈ entries, ∃ way, entry.place = place ++ way ∧
      Action.descend? way action = some entry.action := by
  match action with
  | ⟨kind, condition, delay, detached, onSuccess, onError⟩ =>
    intro entry hentry
    cases haccount with
    | answered _ hbranch =>
        rcases List.mem_cons.1 hentry with rfl | hinner
        · exact ⟨[], (List.append_nil _).symm, rfl⟩
        · obtain ⟨index, way, hplace, haction⟩ := hbranch.within entry hinner
          exact ⟨.onSuccess :: .item (0 + index) :: way, by simpa using hplace,
            by simpa [Action.descend?] using haction⟩
    | refused _ hbranch =>
        rcases List.mem_cons.1 hentry with rfl | hinner
        · exact ⟨[], (List.append_nil _).symm, rfl⟩
        · obtain ⟨index, way, hplace, haction⟩ := hbranch.within entry hinner
          exact ⟨.onError :: .item (0 + index) :: way, by simpa using hplace,
            by simpa [Action.descend?] using haction⟩
    | plain =>
        rw [List.mem_singleton.1 hentry]
        exact ⟨[], (List.append_nil _).symm, rfl⟩
termination_by structural action

theorem BranchAccount.within {engine : Engine} {place : Place} {depth : Nat} {context : Context}
    {actions : Option (List Action)} {entries : List Entry}
    (haccount : engine.BranchAccount place depth context actions entries) :
    ∀ entry ∈ entries, WithinItems place 0 (Action.branch actions) entry := by
  match actions with
  | none =>
      cases haccount
      simp
  | some actions =>
      cases haccount with
      | present hlist => exact hlist.within
termination_by structural actions

theorem ListAccount.within {engine : Engine} {place : Place} {index depth : Nat}
    {context : Context} {actions : List Action} {entries : List Entry} {run : Run}
    (haccount : engine.ListAccount place index depth context actions entries run) :
    ∀ entry ∈ entries, WithinItems place index actions entry := by
  match actions with
  | [] =>
      cases haccount
      simp
  | action :: rest =>
      intro entry hentry
      have hfirst {task : Option TaskId} {own : List Entry} {outcome : Outcome}
          (hown : engine.ActionAccount (place ++ [.item index]) depth context action task own
            outcome) (hmem : entry ∈ own) : WithinItems place index (action :: rest) entry := by
        obtain ⟨way, hplace, haction⟩ := hown.within entry hmem
        exact ⟨0, way, by simpa using hplace, by simpa using haction⟩
      cases haccount with
      | started _ hown hrest | awaited _ hown _ hrest =>
          rcases List.mem_append.1 hentry with hmem | hmem
          · exact hfirst hown hmem
          · exact (hrest.within entry hmem).cons
      | givenUp _ hown => exact hfirst hown hentry
termination_by structural actions

end

theorem item_eq_of_prefix {place way other : Place} {i j : Nat}
    (hunder : place ++ .item i :: way <+: place ++ .item j :: other) : i = j := by
  have hitems := (List.prefix_append_right_inj place).1 hunder
  exact Turn.item.inj (List.cons_prefix_cons.1 hitems).1

/-- Nothing about a later item of a list stands below an earlier one. -/
theorem not_prefix_of_within {place : Place} {index : Nat} {rest : List Action}
    {entry other : Entry} {way : Place} (hentry : entry.place = place ++ [.item index] ++ way)
    (hother : WithinItems place (index + 1) rest other) :
    ¬ entry.place <+: other.place ∧ ¬ other.place <+: entry.place := by
  obtain ⟨offset, later, hplace, -⟩ := hother
  rw [hentry, hplace, List.append_assoc, List.singleton_append]
  constructor
  · intro hunder
    have := item_eq_of_prefix hunder
    omega
  · intro hunder
    have := item_eq_of_prefix hunder
    omega

/-- Entries inside a branch stand below its action, and not the other way. -/
theorem not_prefix_of_branch {place : Place} {turn : Turn} {actions : List Action} {entry : Entry}
    (hentry : WithinItems (place ++ [turn]) 0 actions entry) : ¬ entry.place <+: place := by
  obtain ⟨offset, way, hplace, -⟩ := hentry
  intro hunder
  have hlength := hunder.length_le
  rw [hplace, List.length_append, List.length_append, List.length_singleton] at hlength
  omega

/-- The account of an action in front of the account of its branch. -/
theorem below_of_branch {engine : Engine} {place : Place} {turn : Turn} {depth : Nat}
    {context : Context} {actions : Option (List Action)} {head : Entry} {inner : List Entry}
    (hhead : head.place = place)
    (hbranch : engine.BranchAccount (place ++ [turn]) depth context actions inner)
    {entry : Entry} (hentry : entry ∈ inner) :
    Entry.below entry.place (head :: inner) = Entry.below entry.place inner := by
  apply Entry.below_cons_of_not_prefix
  rw [hhead]
  exact not_prefix_of_branch (hbranch.within entry hentry)

/-- All entries of a branch are below it. -/
theorem BranchAccount.below_eq_self {engine : Engine} {place : Place} {depth : Nat}
    {context : Context} {actions : Option (List Action)} {entries : List Entry}
    (haccount : engine.BranchAccount place depth context actions entries) :
    Entry.below place entries = entries :=
  Entry.below_eq_self fun entry hentry =>
    have ⟨_, _, hplace, _⟩ := haccount.within entry hentry
    ⟨_, hplace.symm⟩

/-- None of the entries of a branch is below the other branch. -/
theorem BranchAccount.below_eq_nil {engine : Engine} {place : Place} {turn other : Turn}
    {depth : Nat} {context : Context} {actions : Option (List Action)} {entries : List Entry}
    (haccount : engine.BranchAccount (place ++ [turn]) depth context actions entries)
    (hother : turn ≠ other) : Entry.below (place ++ [other]) entries = [] := by
  apply Entry.below_eq_nil
  intro entry hentry hunder
  obtain ⟨offset, way, hplace, -⟩ := haccount.within entry hentry
  rw [hplace, List.append_assoc, List.prefix_append_right_inj] at hunder
  exact hother (List.cons_prefix_cons.1 hunder).1.symm

mutual

/-- What lies below the place of an action is the account of that action. -/
theorem ActionAccount.below_of_mem {engine : Engine} {place : Place} {depth : Nat}
    {context : Context} {action : Action} {task : Option TaskId} {entries : List Entry}
    {outcome : Outcome}
    (haccount : engine.ActionAccount place depth context action task entries outcome) :
    ∀ entry ∈ entries, engine.ActionAccount entry.place entry.depth entry.context entry.action
      entry.task (Entry.below entry.place entries) entry.outcome := by
  have hall : Entry.below place entries = entries := Entry.below_eq_self fun entry hentry => by
    obtain ⟨way, hplace, -⟩ := haccount.within entry hentry
    exact ⟨way, hplace.symm⟩
  match action with
  | ⟨kind, condition, delay, detached, onSuccess, onError⟩ =>
    intro entry hentry
    cases haccount with
    | answered hattempted hbranch =>
        rcases List.mem_cons.1 hentry with rfl | hinner
        · rw [hall]
          exact .answered hattempted hbranch
        · rw [below_of_branch rfl hbranch hinner]
          exact hbranch.below_of_mem entry hinner
    | refused hattempted hbranch =>
        rcases List.mem_cons.1 hentry with rfl | hinner
        · rw [hall]
          exact .refused hattempted hbranch
        · rw [below_of_branch rfl hbranch hinner]
          exact hbranch.below_of_mem entry hinner
    | plain hattempted hsuccess hfailure =>
        obtain rfl := List.mem_singleton.1 hentry
        rw [hall]
        exact .plain hattempted hsuccess hfailure
termination_by structural action

theorem BranchAccount.below_of_mem {engine : Engine} {place : Place} {depth : Nat}
    {context : Context} {actions : Option (List Action)} {entries : List Entry}
    (haccount : engine.BranchAccount place depth context actions entries) :
    ∀ entry ∈ entries, engine.ActionAccount entry.place entry.depth entry.context entry.action
      entry.task (Entry.below entry.place entries) entry.outcome := by
  match actions with
  | none =>
      cases haccount
      simp
  | some actions =>
      cases haccount with
      | present hlist => exact hlist.below_of_mem
termination_by structural actions

theorem ListAccount.below_of_mem {engine : Engine} {place : Place} {index depth : Nat}
    {context : Context} {actions : List Action} {entries : List Entry} {run : Run}
    (haccount : engine.ListAccount place index depth context actions entries run) :
    ∀ entry ∈ entries, engine.ActionAccount entry.place entry.depth entry.context entry.action
      entry.task (Entry.below entry.place entries) entry.outcome := by
  match actions with
  | [] =>
      cases haccount
      simp
  | action :: rest =>
      intro entry hentry
      cases haccount with
      | started _ hown hrest | awaited _ hown _ hrest =>
          rw [Entry.below_append]
          rcases List.mem_append.1 hentry with hmem | hmem
          · obtain ⟨way, hplace, -⟩ := hown.within entry hmem
            rw [Entry.below_eq_nil fun other hother =>
              (not_prefix_of_within hplace (hrest.within other hother)).1, List.append_nil]
            exact hown.below_of_mem entry hmem
          · have hwithin := hrest.within entry hmem
            rw [Entry.below_eq_nil fun other hother =>
              have ⟨_, hplace, _⟩ := hown.within other hother
              (not_prefix_of_within hplace hwithin).2, List.nil_append]
            exact hrest.below_of_mem entry hmem
      | givenUp _ hown => exact hown.below_of_mem entry hentry
termination_by structural actions

end

/-- The first entry of an action is its own, and no other one has its place. -/
theorem ActionAccount.exists_head {engine : Engine} {place : Place} {depth : Nat}
    {context : Context} {action : Action} {task : Option TaskId} {entries : List Entry}
    {outcome : Outcome}
    (haccount : engine.ActionAccount place depth context action task entries outcome) :
    ∃ head inner, entries = head :: inner ∧ head.place = place ∧
      ∀ entry ∈ inner, entry.place ≠ place := by
  have hinner {turn : Turn} {context : Context} {actions : Option (List Action)}
      {inner : List Entry}
      (hbranch : engine.BranchAccount (place ++ [turn]) (depth + 1) context actions inner) :
      ∀ entry ∈ inner, entry.place ≠ place := by
    intro entry hentry hplace
    exact not_prefix_of_branch (hbranch.within entry hentry) (hplace ▸ List.prefix_refl _)
  cases haccount with
  | answered _ hbranch | refused _ hbranch => exact ⟨_, _, rfl, rfl, hinner hbranch⟩
  | plain => exact ⟨_, _, rfl, rfl, by simp⟩

/-- No action of the tree is run twice. -/
theorem ListAccount.nodup_places {engine : Engine} {place : Place} {index depth : Nat}
    {context : Context} {actions : List Action} {entries : List Entry} {run : Run}
    (haccount : engine.ListAccount place index depth context actions entries run) :
    (entries.map Entry.place).Nodup := by
  rw [List.nodup_iff_count_le_one]
  intro place
  rw [List.count_eq_countP, List.countP_map, List.countP_eq_length_filter]
  by_cases hmem : ∃ entry ∈ entries, entry.place = place
  · obtain ⟨entry, hentry, rfl⟩ := hmem
    obtain ⟨head, inner, hbelow, hhead, hinner⟩ := (haccount.below_of_mem entry hentry).exists_head
    -- the entries at a place are among those below it
    have hfilter : entries.filter ((· == entry.place) ∘ Entry.place) =
        (Entry.below entry.place entries).filter ((· == entry.place) ∘ Entry.place) := by
      rw [Entry.below, List.filter_filter]
      apply List.filter_congr
      intro other _
      by_cases hplace : other.place = entry.place <;> simp [hplace]
    rw [hfilter, hbelow, List.filter_cons_of_pos (by simpa using hhead),
      List.filter_eq_nil_iff.2 fun other hother => by simpa using hinner other hother]
    exact Nat.le_refl 1
  · rw [List.filter_eq_nil_iff.2 fun entry hentry hplace =>
      hmem ⟨entry, hentry, by simpa using hplace⟩]
    exact Nat.zero_le 1

/-- What must hold behind the reply to the request of an action: the branch for
the reply is run once, in a context that shows the reply, and the other branch
not at all. -/
def RunsBranch (engine : Engine) (entries : List Entry) (entry : Entry) : HttpReply → Prop
  | .ok answer =>
      (entry.context.answered answer).SeesAnswer answer ∧
      engine.BranchAccount (entry.place ++ [.onSuccess]) (entry.depth + 1)
        (entry.context.answered answer) entry.action.onSuccess
        (Entry.below (entry.place ++ [.onSuccess]) entries) ∧
      Entry.below (entry.place ++ [.onError]) entries = []
  | .error error =>
      (entry.context.refused error).SeesRefusal error ∧
      engine.BranchAccount (entry.place ++ [.onError]) (entry.depth + 1)
        (entry.context.refused error) entry.action.onError
        (Entry.below (entry.place ++ [.onError]) entries) ∧
      Entry.below (entry.place ++ [.onSuccess]) entries = []

/-- An action asks: it is a request, not too deep, and its condition holds. -/
def Asks (engine : Engine) (entry : Entry) (message : HttpRequest) : Prop :=
  entry.depth ≤ engine.maxDepth ∧
    Condition.allows entry.action.condition entry.context = true ∧
    ∃ path method body headers, entry.action.kind = .callApi path method body headers ∧
      message = requestOf entry.context path method body headers

/-- The law of requests and branches at one entry of a run. -/
structure EntryLaw (engine : Engine) (entries : List Entry) (entry : Entry) : Prop where
  /-- An action that asks sends one request, ends as the reply says, and runs the
  branch for the reply. -/
  asking : ∀ message, engine.Asks entry message →
    ∃ reply, entry.requests = [(message, reply)] ∧ entry.outcome = .ofReply reply ∧
      engine.RunsBranch entries entry reply
  /-- Any other action sends nothing and runs no branch. -/
  silent : (∀ message, ¬ engine.Asks entry message) →
    entry.requests = [] ∧ Entry.below (entry.place ++ [.onSuccess]) entries = [] ∧
      Entry.below (entry.place ++ [.onError]) entries = []

theorem filterMap_request?_waited (ms : Nat) :
    (Script.waited ms).filterMap Act.request? = [] := by
  rw [Script.waited]
  split <;> rfl

theorem Attempted.of_asks {engine : Engine} {entry : Entry} {message : HttpRequest}
    (hattempted : engine.Attempted entry.depth entry.context entry.action entry.told entry.outcome)
    (hasks : engine.Asks entry message) :
    ∃ reply, entry.requests = [(message, reply)] ∧ entry.outcome = .ofReply reply := by
  obtain ⟨place, action, depth, context, task, told, outcome⟩ := entry
  obtain ⟨hdepth, hallows, path, method, body, headers, hkind, rfl⟩ := hasks
  simp only at hattempted hdepth hallows hkind ⊢
  cases hattempted with
  | tooDeep hdeep => exact absurd hdepth (Nat.not_le.2 hdeep)
  | skipped _ hskip => simp [hskip] at hallows
  | asked reply _ _ hkind' =>
      obtain ⟨rfl, rfl, rfl, rfl⟩ := ActionKind.callApi.inj (hkind.symm.trans hkind')
      exact ⟨reply, by simp [Entry.requests, filterMap_request?_waited, Act.request?], rfl⟩
  | performed _ _ hnone => simp [hkind, ActionKind.method?] at hnone

theorem Attempted.of_not_asks {engine : Engine} {entry : Entry}
    (hattempted : engine.Attempted entry.depth entry.context entry.action entry.told entry.outcome)
    (hsilent : ∀ message, ¬ engine.Asks entry message) :
    entry.requests = [] ∧ (∀ answer, entry.outcome ≠ .success (some answer)) ∧
      ∀ error, entry.outcome ≠ .failure (.request error) := by
  obtain ⟨place, action, depth, context, task, told, outcome⟩ := entry
  simp only at hattempted hsilent ⊢
  cases hattempted with
  | tooDeep | skipped => exact ⟨rfl, by simp, by simp⟩
  | asked reply hdepth hallows hkind =>
      exact absurd ⟨hdepth, hallows, _, _, _, _, hkind, rfl⟩ (hsilent _)
  | performed =>
      refine ⟨?_, fun answer hanswer => ?_, fun error herror => ?_⟩
      · rw [Entry.requests, List.filterMap_append, filterMap_request?_waited, List.nil_append,
          List.filterMap_map]
        exact List.filterMap_eq_nil_iff.2 fun _ _ => rfl
      · have hnone := answer?_outcome action.kind
        rw [hanswer] at hnone
        simp [Outcome.answer?] at hnone
      · cases hkind : action.kind <;> simp [outcome, hkind] at herror

/-- Below the place of an entry are that entry and what its branches did. -/
theorem ListAccount.below_eq_cons {engine : Engine} {place : Place} {index depth : Nat}
    {context : Context} {actions : List Action} {entries : List Entry} {run : Run}
    (haccount : engine.ListAccount place index depth context actions entries run) {entry : Entry}
    (hentry : entry ∈ entries) :
    ∃ inner, Entry.below entry.place entries = entry :: inner ∧
      engine.ActionAccount entry.place entry.depth entry.context entry.action entry.task
        (entry :: inner) entry.outcome := by
  have hown := haccount.below_of_mem entry hentry
  obtain ⟨head, inner, hbelow, hhead, hinner⟩ := hown.exists_head
  have hmem : entry ∈ head :: inner := by
    rw [← hbelow]
    exact List.mem_filter.2 ⟨hentry, List.isPrefixOf_iff_prefix.2 (List.prefix_refl _)⟩
  rcases List.mem_cons.1 hmem with rfl | hlater
  · exact ⟨inner, hbelow, hbelow ▸ hown⟩
  · exact absurd rfl (hinner entry hlater)

theorem ActionAccount.attempted {engine : Engine} {entry : Entry} {inner : List Entry}
    (haccount : engine.ActionAccount entry.place entry.depth entry.context entry.action entry.task
      (entry :: inner) entry.outcome) :
    engine.Attempted entry.depth entry.context entry.action entry.told entry.outcome := by
  obtain ⟨place, action, depth, context, task, told, outcome⟩ := entry
  cases haccount with
  | answered hattempted | refused hattempted | plain hattempted => exact hattempted

theorem ActionAccount.branch_of_answered {engine : Engine} {place : Place} {depth : Nat}
    {context : Context} {action : Action} {task : Option TaskId} {head : Entry}
    {inner : List Entry} {answer : HttpResponse}
    (haccount : engine.ActionAccount place depth context action task (head :: inner)
      (.success (some answer))) :
    engine.BranchAccount (place ++ [.onSuccess]) (depth + 1) (context.answered answer)
      action.onSuccess inner := by
  cases haccount with
  | answered _ hbranch => exact hbranch
  | plain _ hsuccess => exact absurd rfl (hsuccess answer)

theorem ActionAccount.branch_of_refused {engine : Engine} {place : Place} {depth : Nat}
    {context : Context} {action : Action} {task : Option TaskId} {head : Entry}
    {inner : List Entry} {error : HttpError}
    (haccount : engine.ActionAccount place depth context action task (head :: inner)
      (.failure (.request error))) :
    engine.BranchAccount (place ++ [.onError]) (depth + 1) (context.refused error)
      action.onError inner := by
  cases haccount with
  | refused _ hbranch => exact hbranch
  | plain _ _ hfailure => exact absurd rfl (hfailure error)

theorem ActionAccount.inner_eq_nil {engine : Engine} {place : Place} {depth : Nat}
    {context : Context} {action : Action} {task : Option TaskId} {head : Entry}
    {inner : List Entry} {outcome : Outcome}
    (haccount : engine.ActionAccount place depth context action task (head :: inner) outcome)
    (hsuccess : ∀ answer, outcome ≠ .success (some answer))
    (hfailure : ∀ error, outcome ≠ .failure (.request error)) : inner = [] := by
  cases haccount with
  | answered => exact absurd rfl (hsuccess _)
  | refused => exact absurd rfl (hfailure _)
  | plain => rfl

/-- The law holds at every entry. -/
theorem ListAccount.entryLaw {engine : Engine} {place : Place} {index depth : Nat}
    {context : Context} {actions : List Action} {entries : List Entry} {run : Run}
    (haccount : engine.ListAccount place index depth context actions entries run) :
    ∀ entry ∈ entries, engine.EntryLaw entries entry := by
  intro entry hentry
  obtain ⟨inner, hbelow, hown⟩ := haccount.below_eq_cons hentry
  have hturn (turn : Turn) : Entry.below (entry.place ++ [turn]) entries =
      Entry.below (entry.place ++ [turn]) inner := by
    rw [← Entry.below_below (List.prefix_append entry.place [turn]), hbelow]
    apply Entry.below_cons_of_not_prefix
    intro hunder
    have hlength := hunder.length_le
    rw [List.length_append, List.length_singleton] at hlength
    omega
  refine ⟨fun message hasks => ?_, fun hsilent => ?_⟩
  · obtain ⟨reply, hrequests, houtcome⟩ := hown.attempted.of_asks hasks
    refine ⟨reply, hrequests, houtcome, ?_⟩
    rw [houtcome] at hown
    cases reply with
    | ok answer =>
        have hbranch := hown.branch_of_answered
        rw [RunsBranch, hturn, hturn, hbranch.below_eq_self]
        exact ⟨entry.context.seesAnswer_answered answer, hbranch, hbranch.below_eq_nil (by simp)⟩
    | error error =>
        have hbranch := hown.branch_of_refused
        rw [RunsBranch, hturn, hturn, hbranch.below_eq_self]
        exact ⟨entry.context.seesRefusal_refused error, hbranch, hbranch.below_eq_nil (by simp)⟩
  · obtain ⟨hrequests, hsuccess, hfailure⟩ := hown.attempted.of_not_asks hsilent
    have hinner := hown.inner_eq_nil hsuccess hfailure
    rw [hturn, hturn, hinner]
    exact ⟨hrequests, rfl, rfl⟩

/-- Every run over a list of actions, together with all of its tasks, has an
account in which each action that asks sends one request and runs the branch for
its reply, and nothing else is sent or run. -/
theorem callApi_branches (engine : Engine) (depth : Nat) (context : Context)
    (actions : List Action) {acts all : List Act} {run : Run}
    (hwalk : Script.Walk (engine.runList depth context actions) acts run)
    (htogether : engine.Together acts all) :
    ∃ entries, engine.ListAccount [] 0 depth context actions entries run ∧
      all.Perm (actsOf entries) ∧ (entries.map Entry.place).Nodup ∧
      ∀ entry ∈ entries, Action.nodeAt? actions entry.place = some entry.action ∧
        engine.EntryLaw entries entry := by
  obtain ⟨entries, haccount, hacts⟩ :=
    exists_listAccount engine [] 0 depth context actions hwalk htogether
  refine ⟨entries, haccount, hacts.symm, haccount.nodup_places, fun entry hentry => ?_⟩
  refine ⟨?_, haccount.entryLaw entry hentry⟩
  obtain ⟨offset, way, hplace, haction⟩ := haccount.within entry hentry
  rw [hplace, List.nil_append, Nat.zero_add]
  exact haction

/-- A request without an answer runs the branch for failures. -/
theorem callApi_branches_of_refusal :
    let action : Action :=
      { kind := .callApi default .get none none, onError := some [{ kind := .runActions none }] }
    let message := requestOf {} default .get none none
    ∃ entries, ListAccount {} [] 0 0 {} [action] entries
        { outcomes := [.failure (.request default)] } ∧
      [Act.asked message (.error default)].Perm (actsOf entries) := by
  intro action message
  have hwalk : Script.Walk (runList {} 0 {} [action]) [Act.asked message (.error default)]
      { outcomes := [.failure (.request default)] } := .request .done
  obtain ⟨entries, haccount, hacts, -⟩ :=
    callApi_branches {} 0 {} [action] hwalk (.own rfl .nil (.refl _))
  exact ⟨entries, haccount, hacts⟩

end Engine

end LivePage
