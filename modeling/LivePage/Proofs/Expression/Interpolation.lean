import Mathlib.Data.List.Basic
import LivePage.Proofs.Expression.Evaluation
import LivePage.Proofs.Dict

/-!
# Documents with templates

In a document every text is a template, at whatever depth it stands.  Interpolating the
document puts the value of each in its place and leaves everything else alone: the items
of an array stay as many, members stay under their keys, and a text that opens no
placeholder is its own value.
-/

namespace LivePage

/-- A text that opens no placeholder is its own value. -/
theorem Template.evaluate_of_opens_eq_false {text : String} (hplain : opens text = false)
    (context : Context) : (mk text).evaluate context = .str text := by
  apply evaluate_of_isDynamic_eq_false
  have hcut : Text.cutAtPair '{' text.toList = none :=
    Text.cutAtPair_eq_none_iff.2 (String.mentions_eq_false_iff.1 hplain)
  rw [isDynamic, compile, tokens_of_cutAtPair_eq_none hcut, parts, any_isPlaceholder_attach]
  rfl

namespace Json

/-- What holds of every document whose parts it holds of, holds of all documents. -/
@[elab_as_elim]
theorem forall_of_parts {motive : Json → Prop} (null : motive .null)
    (bool : ∀ value, motive (.bool value)) (num : ∀ value, motive (.num value))
    (str : ∀ value, motive (.str value))
    (arr : ∀ items, (∀ item ∈ items, motive item) → motive (.arr items))
    (obj : ∀ members, (∀ member ∈ members, motive member.2) → motive (.obj members))
    (document : Json) : motive document :=
  @Json.rec motive (fun items => ∀ item ∈ items, motive item)
    (fun members => ∀ member ∈ members, motive member.2) (fun member => motive member.2)
    null bool num str arr obj
    (fun _ hmem => nomatch hmem)
    (fun _ _ hfirst hrest => List.forall_mem_cons.2 ⟨hfirst, hrest⟩)
    (fun _ hmem => nomatch hmem)
    (fun _ _ hfirst hrest => List.forall_mem_cons.2 ⟨hfirst, hrest⟩)
    (fun _ _ hvalue => hvalue) document

/-- The second document is the first with every text replaced by its value.  Arrays keep
their length and objects their keys, and all that is not a text stays as it is. -/
inductive Replaced (value : String → Json) : Json → Json → Prop where
  | text (s : String) : Replaced value (.str s) (value s)
  | null : Replaced value .null .null
  | bool (b : Bool) : Replaced value (.bool b) (.bool b)
  | num (n : Number) : Replaced value (.num n) (.num n)
  | items {before after : List Json} (hlength : before.length = after.length)
      (hitems : ∀ i (hbefore : i < before.length) (hafter : i < after.length),
        Replaced value before[i] after[i]) :
      Replaced value (.arr before) (.arr after)
  | members {before after : List (String × Json)}
      (hkeys : before.map Prod.fst = after.map Prod.fst)
      (hvalues : ∀ i (hbefore : i < before.length) (hafter : i < after.length),
        Replaced value before[i].2 after[i].2) :
      Replaced value (.obj before) (.obj after)

/-- There is only one way to replace the texts of a document. -/
theorem Replaced.unique {value : String → Json} {document first second : Json}
    (hfirst : Replaced value document first) (hsecond : Replaced value document second) :
    first = second := by
  induction hfirst generalizing second with
  | text | null | bool | num => cases hsecond; rfl
  | items hlength hitems ih =>
      cases hsecond with
      | items hlength' hitems' =>
          refine congrArg Json.arr (List.ext_getElem (hlength.symm.trans hlength') ?_)
          intro i hi hi'
          exact ih i (hlength ▸ hi) hi (hitems' i (hlength ▸ hi) hi')
  | members hkeys hvalues ih =>
      cases hsecond with
      | members hkeys' hvalues' =>
          have hlength := congrArg List.length hkeys
          have hlength' := congrArg List.length hkeys'
          simp only [List.length_map] at hlength hlength'
          refine congrArg Json.obj (List.ext_getElem (hlength.symm.trans hlength') ?_)
          intro i hi hi'
          apply Prod.ext
          · have hkey := congrArg (·[i]?) (hkeys.symm.trans hkeys')
            simpa [hi, hi'] using hkey
          · exact ih i (hlength ▸ hi) hi (hvalues' i (hlength ▸ hi) hi')

/-! ## Interpolated documents -/

variable (context : Context)

theorem interpolateItems_eq_map (items : List Json) :
    interpolateItems context items = items.map (interpolate context) := by
  induction items with
  | nil => rfl
  | cons item rest ih => rw [interpolateItems, ih, List.map_cons]

theorem interpolateMembers_eq_map (members : List (String × Json)) :
    interpolateMembers context members =
      members.map fun member => (member.1, interpolate context member.2) := by
  induction members with
  | nil => rfl
  | cons member rest ih => rw [interpolateMembers, ih, List.map_cons]

/-- A text is evaluated also where it is left as it is for opening no placeholder. -/
theorem interpolate_str (text : String) :
    (Json.str text).interpolate context = (Template.mk text).evaluate context := by
  rw [interpolate]
  split
  · rfl
  · next hplain => rw [Template.evaluate_of_opens_eq_false (by simpa using hplain) context]

theorem replaced_interpolate (document : Json) :
    Replaced (fun text => (Template.mk text).evaluate context) document
      (document.interpolate context) := by
  induction document using forall_of_parts with
  | null => exact .null
  | bool value => exact .bool value
  | num value => exact .num value
  | str text =>
      rw [interpolate_str]
      exact .text text
  | arr items ih =>
      rw [interpolate, interpolateItems_eq_map]
      apply Replaced.items (by simp)
      intro i hbefore hafter
      rw [List.getElem_map]
      exact ih _ (List.getElem_mem hbefore)
  | obj members ih =>
      rw [interpolate, interpolateMembers_eq_map]
      apply Replaced.members (by simp)
      intro i hbefore hafter
      rw [List.getElem_map]
      exact ih _ (List.getElem_mem hbefore)

/-- One step into an interpolated document leads to what is behind that step, interpolated. -/
theorem step?_interpolate {segment : Segment} {document value : Json}
    (hstep : document.step? segment = some value) :
    (document.interpolate context).step? segment = some (value.interpolate context) := by
  cases document with
  | null | bool | num | str => cases hstep
  | arr items =>
      rw [interpolate, interpolateItems_eq_map]
      obtain ⟨position, hposition, hitem⟩ := Option.bind_eq_some_iff.1 hstep
      rw [step?, hposition, Option.bind_some, List.getElem?_map, hitem, Option.map_some]
  | obj members =>
      rw [interpolate, interpolateMembers_eq_map]
      change Dict.find? segment.name members = some value at hstep
      change Dict.find? segment.name _ = _
      rw [Dict.find?_map fun _ => interpolate context, hstep, Option.map_some]

theorem walk?_interpolate {segments : List Segment} {document value : Json}
    (hwalk : document.walk? segments = some value) :
    (document.interpolate context).walk? segments = some (value.interpolate context) := by
  induction segments generalizing document with
  | nil =>
      rw [← Option.some.inj hwalk]
      rfl
  | cons segment rest ih =>
      obtain ⟨next, hstep, hrest⟩ := Option.bind_eq_some_iff.1 hwalk
      rw [walk?, step?_interpolate context hstep]
      exact ih hrest

/-- Interpolating a document evaluates its texts as templates and does nothing else.  The
result is the one document that differs from it by the values of its texts: with as many
items in every array, and the same keys, which are no templates, in every object.  Every
path into the document leads to the interpolated value of what it led to.  A text that is
left as it is, for opening no placeholder, is what evaluating it gives. -/
theorem interpolates_texts (context : Context) (document : Json) :
    (∀ result, document.interpolate context = result ↔
        Replaced (fun text => (Template.mk text).evaluate context) document result) ∧
      (∀ segments value, document.walk? segments = some value →
        (document.interpolate context).walk? segments = some (value.interpolate context)) ∧
      ∀ text, (Json.str text).interpolate context = (Template.mk text).evaluate context ∧
        (Template.opens text = false → (Template.mk text).evaluate context = .str text) := by
  refine ⟨fun result => ⟨?_, ?_⟩, fun segments value => walk?_interpolate context, fun text => ?_⟩
  · rintro rfl
    exact replaced_interpolate context document
  · exact (replaced_interpolate context document).unique
  · exact ⟨interpolate_str context text,
      fun hplain => Template.evaluate_of_opens_eq_false hplain context⟩

/-- A list is put in below a key that looks like its placeholder, and the text behind it
stays. -/
theorem interpolates_texts_of_key :
    let context : Context := { form := Dict.ofList [("a", .arr [.null])] }
    let key := "\x7b\x7bform.a\x7d\x7d"
    let document : Json := .obj [(key, .arr [.str key, .str "plain"])]
    document.walk? [.key key, .index 0] = some (.str key) ∧
      (document.interpolate context).walk? [.key key, .index 0] = some (.arr [.null]) ∧
      Template.opens "plain" = false ∧
      (document.interpolate context).walk? [.key key, .index 1] = some (.str "plain") := by
  intro context key document
  obtain ⟨-, hwalk, htexts⟩ := interpolates_texts context document
  have hkey : (Template.mk key).evaluate context = .arr [.null] := by
    have halone : Template.StandsAlone key "form.a" :=
      ⟨by decide, by decide, Template.closedLast_iff.2 (by decide)⟩
    have hpath : Path.parse "form.a" = .ok ⟨[.key "form", .key "a"]⟩ := by decide +kernel
    rw [Template.evaluate_of_standsAlone halone, Context.lookup, hpath]
    rfl
  have hplain : Template.opens "plain" = false := by decide
  refine ⟨rfl, ?_, hplain, ?_⟩
  · rw [hwalk [.key key, .index 0] (.str key) rfl, (htexts key).1, hkey]
  · rw [hwalk [.key key, .index 1] (.str "plain") rfl, (htexts "plain").1,
      (htexts "plain").2 hplain]

end Json

end LivePage
