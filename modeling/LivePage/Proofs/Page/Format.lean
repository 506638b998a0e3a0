import LivePage.Page.Definition
import LivePage.Proofs.Page.ActionFormat
import LivePage.Proofs.Store.Encoding

/-!
# The page format

Pages survive being written and read.  Whatever document a page was read from, with
fields left out, records as arrays, other spellings and unknown members, it is read
again from its encoding as the same page, so encodings of pages are their one
canonical form.
-/

namespace LivePage

open Json (Faithful)
open Json.Fields

theorem Trigger.faithful : Faithful Trigger.decode? Trigger.encode := by
  rw [funext Trigger.encode_eq_name]
  exact .choice Trigger.ofName?_name

theorem Binding.faithful : Faithful Binding.decode? Binding.encode where
  again := fun hdecode => by
    simp only [decode?, Option.bind_eq_bind, Option.bind_eq_some_iff, Option.pure_def,
      Option.some.injEq] at hdecode ⊢
    obtain ⟨fields, -, trigger, htrigger, enabled, henabled, condition, hcondition,
      actions, hactions, rfl⟩ := hdecode
    exact ⟨_, Json.fields?_ofMembers _ _,
      trigger, required_again Trigger.faithful htrigger (by simp),
      enabled, withDefault_again .bool rfl henabled (by simp),
      condition, optional_again Condition.faithful hcondition (by simp),
      actions, withDefault_again Action.faithful.list rfl hactions (by simp), rfl⟩
  present := nofun

theorem Component.faithful : Faithful Component.decode? Component.encode where
  again := fun hdecode => by
    simp only [decode?, Option.bind_eq_bind, Option.bind_eq_some_iff, Option.pure_def,
      Option.some.injEq] at hdecode ⊢
    obtain ⟨fields, -, state, hstate, bindings, hbindings, rfl⟩ := hdecode
    exact ⟨_, Json.fields?_ofMembers _ _,
      state, optional_again ComponentState.faithful hstate (by simp),
      bindings, withDefault_again Binding.faithful.list rfl hbindings (by simp), rfl⟩
  present := nofun

/-- The states that components start from were decoded. -/
theorem Component.exists_of_initialState {j : Json} {component : Component}
    (hdecode : decode? j = some component) :
    ∀ state ∈ component.initialState, ∃ k, ComponentState.decode? k = some state := by
  intro state hstate
  simp only [decode?, Option.bind_eq_bind, Option.bind_eq_some_iff, Option.pure_def,
    Option.some.injEq] at hdecode
  obtain ⟨fields, -, initial, hinitial, bindings, -, rfl⟩ := hdecode
  obtain rfl : initial = some state := hstate
  obtain ⟨k, -, hk⟩ := exists_of_optional hinitial
  exact ⟨k, hk⟩

theorem Settings.faithful : Faithful Settings.decode? Settings.encode where
  again := fun hdecode => by
    simp only [decode?, Option.bind_eq_bind, Option.bind_eq_some_iff, Option.pure_def,
      Option.some.injEq] at hdecode ⊢
    obtain ⟨fields, -, baseUrl, hbaseUrl, locale, hlocale, locales, hlocales, maxDepth, hmaxDepth,
      toastMs, htoastMs, rfl⟩ := hdecode
    exact ⟨_, Json.fields?_ofMembers _ _, baseUrl, optional_again .text hbaseUrl (by simp),
      locale, optional_again .text hlocale (by simp),
      locales, withDefault_again Faithful.text.list rfl hlocales (by simp),
      maxDepth, withDefault_again (.natBelow _) (by decide) hmaxDepth (by simp),
      toastMs, optional_again (.natBelow _) htoastMs (by simp), rfl⟩
  present := nofun

theorem Route.faithful : Faithful Route.decode? Route.encode where
  again := fun hdecode => by
    simp only [decode?, Option.bind_eq_bind, Option.bind_eq_some_iff, Option.pure_def,
      Option.some.injEq] at hdecode ⊢
    obtain ⟨fields, -, params, hparams, query, hquery, rfl⟩ := hdecode
    exact ⟨_, Json.fields?_ofMembers _ _,
      params, withDefault_again .documents rfl hparams (by simp),
      query, withDefault_again .documents rfl hquery (by simp), rfl⟩
  present := nofun

theorem User.faithful : Faithful User.decode? User.encode where
  again := fun hdecode => by
    simp only [decode?, Option.bind_eq_bind, Option.bind_eq_some_iff, Option.pure_def,
      Option.some.injEq] at hdecode ⊢
    obtain ⟨fields, -, id, hid, name, hname, email, hemail, role, hrole, rfl⟩ := hdecode
    exact ⟨_, Json.fields?_ofMembers _ _, id, optional_again .text hid (by simp),
      name, optional_again .text hname (by simp), email, optional_again .text hemail (by simp),
      role, optional_again .text hrole (by simp), rfl⟩
  present := nofun

namespace Source

/-- A source that was read is standard input or was made from the fields of a file. -/
theorem eq_stdin_or_ofFields? {j : Json} {source : Source} (hdecode : decode? j = some source) :
    source = stdin ∨ ∃ fields, ofFields? fields = some source := by
  unfold decode? at hdecode
  split at hdecode
  · split at hdecode
    · obtain ⟨fields, -, hread⟩ := Option.bind_eq_some_iff.1 hdecode
      exact .inr ⟨fields, hread⟩
    · split at hdecode
      · exact .inl (Option.some.inj hdecode).symm
      · cases hdecode
  · simp only [Option.bind_eq_bind, Option.bind_eq_some_iff] at hdecode
    obtain ⟨_, -, tag, -, hdecode⟩ := hdecode
    split at hdecode
    · obtain ⟨fields, -, hread⟩ := Option.bind_eq_some_iff.1 hdecode
      exact .inr ⟨fields, hread⟩
    · split at hdecode
      · exact .inl (Option.some.inj hdecode).symm
      · cases hdecode
  · cases hdecode

/-- A tagged object is read as the tag says. -/
theorem decode?_of_tag {written : Dict Json} (htag : written.get? "type" = some (.str "file")) :
    decode? (.ofDict written) = ofFields? written.entries := by
  have hread : required written.entries "type" Json.text? = some "file" := by
    change (written.get? "type").bind Json.text? = _
    rw [htag]
    rfl
  simp only [Json.ofDict, decode?, Json.members?_entries, Option.bind_eq_bind, Option.bind_some,
    hread, if_true]

theorem faithful : Faithful decode? encode where
  again := fun hdecode => by
    rcases eq_stdin_or_ofFields? hdecode with rfl | ⟨fields, hread⟩
    · rfl
    · simp only [ofFields?, Option.bind_eq_bind, Option.bind_eq_some_iff, Option.pure_def,
        Option.some.injEq] at hread
      obtain ⟨path, hpath, pollMs, hpollMs, deletes, hdeletes, rfl⟩ := hread
      rw [encode, Json.ofMembers, decode?_of_tag (by simp)]
      simp only [ofFields?, Option.bind_eq_bind, Option.bind_eq_some_iff, Option.pure_def,
        Option.some.injEq]
      exact ⟨path, required_again .text hpath (by simp),
        pollMs, optional_again (.natBelow _) hpollMs (by simp [Json.ofOption]),
        deletes, optional_again .bool hdeletes (by simp [Json.ofOption]), rfl⟩
  present := fun {_ source} _ hnull => by cases source <;> cases hnull

end Source

theorem Page.faithful : Faithful Page.decode? Page.encode where
  again := fun hdecode => by
    simp only [decode?, Option.bind_eq_bind, Option.bind_eq_some_iff, Option.pure_def,
      Option.some.injEq] at hdecode ⊢
    obtain ⟨fields, -, settings, hsettings, route, hroute, user, huser, form, hform,
      components, hcomponents, sources, hsources, rfl⟩ := hdecode
    exact ⟨_, Json.fields?_ofMembers _ _,
      settings, withDefault_again Settings.faithful rfl hsettings (by simp),
      route, withDefault_again Route.faithful rfl hroute (by simp),
      user, withDefault_again User.faithful rfl huser (by simp),
      form, withDefault_again .documents rfl hform (by simp),
      components, withDefault_again Component.faithful.dict rfl hcomponents (by simp),
      sources, withDefault_again Source.faithful.list rfl hsources (by simp), rfl⟩
  present := nofun

namespace Page

/-- The components of a page that was decoded were decoded. -/
theorem exists_of_components {j : Json} {page : Page} (hdecode : decode? j = some page) :
    ∀ entry ∈ page.components.entries, ∃ k, Component.decode? k = some entry.2 := by
  simp only [decode?, Option.bind_eq_bind, Option.bind_eq_some_iff, Option.pure_def,
    Option.some.injEq] at hdecode
  obtain ⟨fields, -, settings, -, route, -, user, -, form, -, components, hcomponents, sources, -,
    rfl⟩ := hdecode
  rw [withDefault] at hcomponents
  split at hcomponents
  · rw [← Option.some.inj hcomponents]
    exact fun entry hmem => absurd hmem List.not_mem_nil
  · exact Json.exists_of_dict? hcomponents

/-- The page format loses nothing.  A page that was read from any document is read
again, the same, from its encoding.  So its encoding is a canonical form: reading and
writing it changes nothing, and no other page that can be read has the same one. -/
theorem canonical_encoding {j : Json} {page : Page} (hdecode : decode? j = some page) :
    decode? page.encode = some page ∧ (decode? page.encode).map encode = some page.encode ∧
      ∀ {k : Json} {other : Page}, decode? k = some other → other.encode = page.encode →
        other = page := by
  have hagain : decode? page.encode = some page := Page.faithful.again hdecode
  refine ⟨hagain, by rw [hagain, Option.map_some], fun {k other} hother hsame => ?_⟩
  have hotherAgain : decode? other.encode = some other := Page.faithful.again hother
  rw [hsame, hagain] at hotherAgain
  exact (Option.some.inj hotherAgain).symm

/-- A document that leaves out what it can, and gives records as arrays. -/
def terseDocument : Json :=
  let condition := .arr [.str "form.a", .str "resembles", .null]
  let unknown := .obj [("type", .str "blink"), ("delay", .ofNat 5), ("color", .str "red")]
  let call := .obj [("type", .str "callApi"), ("apiPath", .str "/a"), ("apiMethod", .str "get"),
    ("condition", condition), ("onSuccess", .arr [unknown]), ("onError", .null)]
  let state := .obj [("rows", .arr []), ("value", .null), ("filterParams", .obj [])]
  let events := .arr [.arr [.str "onClick", .bool false, .null, .arr [call]]]
  .obj [("sources", .arr [.arr [.str "file", .str "records"]]),
    ("components", .obj [("b", .obj [("initialState", state), ("events", events)])])]

/-- The page of the terse document is read again from an encoding that is not the
document. -/
theorem canonical_encoding_of_terse :
    ∃ page, decode? terseDocument = some page ∧ decode? page.encode = some page ∧
      (page.encode == terseDocument) = false := by
  have hread : (decode? terseDocument).isSome := by decide +kernel
  have hdiffers : (decode? terseDocument).all fun page => !(page.encode == terseDocument) := by
    decide +kernel
  obtain ⟨page, hpage⟩ := Option.isSome_iff_exists.1 hread
  rw [hpage] at hdiffers
  exact ⟨page, hpage, (canonical_encoding hpage).1, by simpa using hdiffers⟩

end Page

end LivePage
