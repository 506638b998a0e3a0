import LivePage.Proofs.Expression.Context
import LivePage.Proofs.Expression.Template

/-!
# The values of templates

A template has a value and a text, and the text of its value is its text.  The value is
the one that was looked up, of whatever type, if the source is one placeholder and
nothing else; any other template stands for a text, and one without placeholders for its
source.
-/

namespace LivePage

/-! ## Contexts without texts -/

/-- No path into the document ends at a text. -/
def Json.IsTextless (document : Json) : Prop :=
  ∀ segments text, document.walk? segments ≠ some (.str text)

theorem Json.isTextless_null : IsTextless .null := by
  intro segments text
  cases segments <;> exact fun hwalk => nomatch hwalk

theorem Json.isTextless_obj {members : List (String × Json)}
    (hmembers : ∀ entry ∈ members, IsTextless entry.2) : IsTextless (.obj members) := by
  intro segments text
  cases segments with
  | nil => exact fun hwalk => nomatch hwalk
  | cons segment rest =>
      change (Dict.find? segment.name members).bind (walk? rest) ≠ _
      cases hfind : Dict.find? segment.name members with
      | none => exact fun hwalk => nomatch hwalk
      | some value => exact hmembers _ (Dict.mem_of_find? hfind) rest text

/-- A context that nothing was put into holds no text. -/
theorem Context.isTextless_encode : ({} : Context).encode.IsTextless := by
  have hencode : ({} : Context).encode = .obj
      [("components", .obj []),
        ("event", .obj [("target", .null), ("type", .null), ("value", .null)]),
        ("form", .obj []),
        ("page", .obj [("params", .obj []), ("query", .obj [])]),
        ("user", .obj [])] := rfl
  have hempty : Json.IsTextless (.obj []) := Json.isTextless_obj fun _ hmem => nomatch hmem
  rw [hencode]
  apply Json.isTextless_obj
  simp only [List.forall_mem_cons]
  refine ⟨hempty, ?_, hempty, ?_, hempty, fun _ hmem => nomatch hmem⟩
  · apply Json.isTextless_obj
    simp [Json.isTextless_null]
  · apply Json.isTextless_obj
    simp [hempty]

theorem Context.lookup_ne_str (token text : String) :
    ({} : Context).lookup token ≠ .str text := by
  rw [lookup]
  cases hparse : Path.parse token with
  | error fault => exact Json.noConfusion
  | ok path =>
      change Json.ofOption (resolve? _ path) ≠ _
      rw [resolve?_eq_walk? _ (Path.segments_ne_nil hparse)]
      have htextless := isTextless_encode path.segments text
      cases hwalk : ({} : Context).encode.walk? path.segments with
      | none => exact Json.noConfusion
      | some value => exact fun hvalue => htextless (hwalk.trans (congrArg some hvalue))

namespace Template

/-! ## Compiled templates -/

theorem attach_eq_nil_iff {cs : List Char} {parts : List Part} :
    attach cs parts = [] ↔ cs = [] ∧ parts = [] := by
  rw [attach.eq_def]
  split
  · simp
  · split <;> simp_all

/-- A placeholder comes first only if there is no text in front of it. -/
theorem attach_eq_placeholder_iff {cs : List Char} {parts rest : List Part}
    {path : Option Path} :
    attach cs parts = .placeholder path :: rest ↔
      cs = [] ∧ parts = .placeholder path :: rest := by
  rw [attach.eq_def]
  split
  · simp
  · split <;> simp_all

theorem any_isPlaceholder_attach (cs : List Char) (parts : List Part) :
    (attach cs parts).any Part.isPlaceholder = parts.any Part.isPlaceholder := by
  rw [attach.eq_def]
  split
  · rfl
  · split <;> rfl

/-- Only an empty source has no parts. -/
theorem flatMap_source_of_parts_eq_nil {tokens : List Token} (hparts : parts tokens = []) :
    tokens.flatMap Token.source = [] := by
  induction tokens with
  | nil => rfl
  | cons token rest ih =>
      cases token with
      | text cs =>
          obtain ⟨rfl, hrest⟩ := attach_eq_nil_iff.1 hparts
          exact ih hrest
      | hole cs =>
          rw [parts] at hparts
          split at hparts
          · exact absurd (attach_eq_nil_iff.1 hparts).1 (List.cons_ne_nil _ _)
          · cases hparts

/-- Without a placeholder every token is rendered as it was written. -/
theorem flatMap_render_of_static (context : Context) {tokens : List Token}
    (hstatic : (parts tokens).any Part.isPlaceholder = false) :
    tokens.flatMap (Token.render context) = tokens.flatMap Token.source := by
  induction tokens with
  | nil => rfl
  | cons token rest ih =>
      rw [List.flatMap_cons, List.flatMap_cons]
      cases token with
      | text cs =>
          rw [parts, any_isPlaceholder_attach] at hstatic
          rw [ih hstatic]
          rfl
      | hole cs =>
          rw [parts] at hstatic
          split at hstatic
          · next hblank =>
              rw [any_isPlaceholder_attach] at hstatic
              rw [ih hstatic, Token.render, if_pos hblank]
          · cases hstatic

/-- The text of a template without placeholders is its source. -/
theorem render_of_isDynamic_eq_false {source : String}
    (hstatic : (mk source).isDynamic = false) (context : Context) :
    (mk source).render context = source := by
  rw [← String.toList_inj, toList_render, flatMap_render_of_static context hstatic,
    flatMap_source_tokens]

/-! ## Templates of one placeholder -/

/-- The source is one placeholder with a token in it and nothing else: the first closing
pair of braces behind the opening one ends it, and the token is not blank. -/
structure StandsAlone (source token : String) : Prop where
  written : source = "\x7b\x7b" ++ token ++ "\x7d\x7d"
  notBlank : token.isBlank = false
  closedLast : ∀ before behind, token ++ "\x7d\x7d" = before ++ "\x7d\x7d" ++ behind → behind = ""

/-- The first closing pair ends a text exactly if no pair begins before it. -/
theorem closedLast_iff {token : String} :
    (∀ before behind, token ++ "\x7d\x7d" = before ++ "\x7d\x7d" ++ behind → behind = "") ↔
      ¬['}', '}'] <:+: token.toList ++ ['}'] := by
  constructor
  · rintro hlast ⟨before, behind, hinfix⟩
    have hbehind := hlast (String.ofList before) (String.ofList (behind ++ ['}'])) (by
      rw [← String.toList_inj]
      simpa using (congrArg (· ++ ['}']) hinfix).symm)
    simpa using congrArg String.toList hbehind
  · intro hfree before behind hpair
    have hchars : token.toList ++ ['}', '}'] =
        before.toList ++ ['}', '}'] ++ behind.toList := by
      simpa using congrArg String.toList hpair
    rcases List.eq_nil_or_concat behind.toList with hnil | ⟨front, last, hconcat⟩
    · exact String.toList_injective hnil
    · refine absurd ⟨before.toList, front, ?_⟩ hfree
      rw [hconcat] at hchars
      have hcancel : (token.toList ++ ['}']) ++ ['}'] =
          (before.toList ++ ['}', '}'] ++ front) ++ [last] := by
        simpa using hchars
      exact (List.append_inj' hcancel rfl).1.symm

theorem compile_of_standsAlone {source token : String} (halone : StandsAlone source token) :
    (mk source).compile = [.placeholder (Path.parse token).toOption] := by
  have hsource : source.toList = '{' :: '{' :: (token.toList ++ ['}', '}']) := by
    simp [halone.written]
  have hclose : Text.cutAtPair '}' (token.toList ++ ['}', '}']) = some (token.toList, []) :=
    Text.cutAtPair_append (closedLast_iff.1 halone.closedLast) []
  have htokens : tokens source.toList = [.text [], .hole token.toList, .text []] := by
    rw [hsource, tokens_of_cutAtPair (Text.cutAtPair_pair '{' _), hclose]
    exact congrArg (Token.text [] :: Token.hole token.toList :: ·)
      (tokens_of_cutAtPair_eq_none rfl)
  have hblank : Text.allBlank token.toList = false := halone.notBlank
  rw [compile, htokens]
  simp [parts, attach, hblank]

/-- A template is compiled to one placeholder only if its source is one. -/
theorem exists_standsAlone {source : String} {path : Option Path}
    (hcompile : (mk source).compile = [.placeholder path]) : ∃ token, StandsAlone source token := by
  rw [Template.compile] at hcompile
  cases hopen : Text.cutAtPair '{' source.toList with
  | none =>
      rw [tokens_of_cutAtPair_eq_none hopen] at hcompile
      cases (attach_eq_placeholder_iff.1 hcompile).2
  | some cut =>
      obtain ⟨before, behind⟩ := cut
      rw [tokens_of_cutAtPair hopen] at hcompile
      cases hclose : Text.cutAtPair '}' behind with
      | none =>
          rw [hclose] at hcompile
          cases (attach_eq_placeholder_iff.1 hcompile).2
      | some cut =>
          obtain ⟨inner, rest⟩ := cut
          rw [hclose] at hcompile
          obtain ⟨rfl, hparts⟩ := attach_eq_placeholder_iff.1 hcompile
          rw [parts] at hparts
          split at hparts
          · cases (attach_eq_placeholder_iff.1 hparts).1
          · next hblank =>
              have hrest : rest = [] := by
                rw [← flatMap_source_tokens rest]
                exact flatMap_source_of_parts_eq_nil (List.cons.inj hparts).2
              subst hrest
              obtain ⟨rfl, hfree⟩ := Text.cutAtPair_eq_some_iff.1 hclose
              refine ⟨String.ofList inner, ?_, by simpa [String.isBlank] using hblank, ?_⟩
              · rw [← String.toList_inj, Text.cutAtPair_eq_some hopen]
                simp
              · rw [closedLast_iff, String.toList_ofList]
                exact hfree

theorem evaluate_of_standsAlone {source token : String} (halone : StandsAlone source token)
    (context : Context) : (mk source).evaluate context = context.lookup token := by
  rw [Template.evaluate, compile_of_standsAlone halone]
  exact resolve_parse context token

/-- Any other template stands for its text. -/
theorem evaluate_of_not_standsAlone {source : String} (hmixed : ¬∃ token, StandsAlone source token)
    (context : Context) :
    (mk source).evaluate context = .str ((mk source).render context) := by
  rw [Template.evaluate.eq_def]
  split
  · next hcompile => rw [render, hcompile]; rfl
  · next path hcompile => exact absurd (exists_standsAlone hcompile) hmixed
  · split
    · rfl
    · next hstatic => rw [render_of_isDynamic_eq_false (by simpa using hstatic)]

theorem plainText_evaluate (source : String) (context : Context) :
    ((mk source).evaluate context).plainText = (mk source).render context := by
  by_cases halone : ∃ token, StandsAlone source token
  · obtain ⟨token, halone⟩ := halone
    rw [evaluate_of_standsAlone halone, ← resolve_parse, render, compile_of_standsAlone halone]
    simp [Part.render]
  · rw [evaluate_of_not_standsAlone halone]
    rfl

/-- Without a placeholder a template stands for its source. -/
theorem evaluate_of_isDynamic_eq_false {source : String}
    (hstatic : (mk source).isDynamic = false) (context : Context) :
    (mk source).evaluate context = .str source := by
  have hmixed : ¬∃ token, StandsAlone source token := by
    rintro ⟨token, halone⟩
    rw [isDynamic, compile_of_standsAlone halone] at hstatic
    cases hstatic
  rw [evaluate_of_not_standsAlone hmixed, render_of_isDynamic_eq_false hstatic]

/-- What a template stands for.  The text of its value is what it is rendered as.  If the
source is one placeholder and nothing else the value is what is looked up, with its own
type; in all other cases, and in no others whatever the context, it is a text, and without a
placeholder that text is the source. -/
theorem value_or_text (source : String) :
    (∀ context, ((mk source).evaluate context).plainText = (mk source).render context) ∧
      (∀ token, StandsAlone source token →
        ∀ context, (mk source).evaluate context = context.lookup token) ∧
      ((¬∃ token, StandsAlone source token) →
        ∀ context, (mk source).evaluate context = .str ((mk source).render context)) ∧
      ((∃ token, StandsAlone source token) ↔
        ∃ context, ∀ text, (mk source).evaluate context ≠ .str text) ∧
      ((mk source).isDynamic = false → ∀ context, (mk source).evaluate context = .str source) := by
  refine ⟨plainText_evaluate source, fun token => evaluate_of_standsAlone,
    evaluate_of_not_standsAlone, ⟨?_, ?_⟩, evaluate_of_isDynamic_eq_false⟩
  · rintro ⟨token, halone⟩
    refine ⟨{}, fun text => ?_⟩
    rw [evaluate_of_standsAlone halone]
    exact Context.lookup_ne_str token text
  · rintro ⟨context, htyped⟩
    by_contra hmixed
    exact htyped _ (evaluate_of_not_standsAlone hmixed context)

/-- A list behind blanks stays a list, but becomes text in front of a third closing brace,
which is no part of the placeholder; and an empty pair is text as it stands. -/
theorem value_or_text_of_list :
    let context : Context := { form := Dict.ofList [("tags", .arr [.str "a"])] }
    let single := "\x7b\x7b form.tags \x7d\x7d"
    let longer := "\x7b\x7bform.tags\x7d\x7d\x7d"
    let blank := "\x7b\x7b\x7d\x7d"
    StandsAlone single " form.tags " ∧ (mk single).evaluate context = .arr [.str "a"] ∧
      (¬∃ token, StandsAlone longer token) ∧
      (mk longer).evaluate context = .str "[\"a\"]\x7d" ∧
      (mk blank).isDynamic = false ∧ (mk blank).evaluate context = .str blank := by
  intro context single longer blank
  have halone : StandsAlone single " form.tags " :=
    ⟨by decide, by decide, closedLast_iff.2 (by decide)⟩
  have hmixed : ¬∃ token, StandsAlone longer token := by
    rintro ⟨token, hwritten, -, hlast⟩
    have hclose : token ++ "\x7d\x7d" = "form.tags" ++ "\x7d\x7d" ++ "\x7d" := by
      rw [← String.toList_inj] at hwritten ⊢
      simpa [longer] using hwritten.symm
    exact absurd (hlast _ _ hclose) (by decide)
  have hstatic : (mk blank).isDynamic = false := by decide +kernel
  obtain ⟨-, htyped, -⟩ := value_or_text single
  obtain ⟨-, -, htext, -⟩ := value_or_text longer
  obtain ⟨-, -, -, -, hsource⟩ := value_or_text blank
  refine ⟨halone, ?_, hmixed, ?_, hstatic, hsource hstatic context⟩
  · have hpath : Path.parse " form.tags " = .ok ⟨[.key "form", .key "tags"]⟩ := by decide +kernel
    rw [htyped " form.tags " halone context, Context.lookup, hpath]
    rfl
  · rw [htext hmixed context]
    exact congrArg Json.str (by decide +kernel)

end Template

end LivePage
