import LivePage.Expression.Template
import LivePage.Proofs.Text.Cut

/-!
# The grammar of templates

A source is cut from left to right into text and holes, and every token is rendered
on its own: text as itself, a blank hole as itself as well, and any other hole as the
value at its path.  So what was put in for a hole is never looked at again.
-/

namespace LivePage.Template

/-! ## Tokens -/

theorem tokens_of_cutAtPair_eq_none {cs : List Char} (hcut : Text.cutAtPair '{' cs = none) :
    tokens cs = [.text cs] := by
  rw [tokens]
  split
  · rfl
  · next hsome => cases hcut.symm.trans hsome

theorem tokens_of_cutAtPair {cs before behind : List Char}
    (hcut : Text.cutAtPair '{' cs = some (before, behind)) :
    tokens cs = match Text.cutAtPair '}' behind with
      | none => [.text cs]
      | some (inner, rest) => .text before :: .hole inner :: tokens rest := by
  rw [tokens]
  split
  · next hnone => cases hcut.symm.trans hnone
  · next hsome =>
      obtain ⟨rfl, rfl⟩ := Prod.mk.inj (Option.some.inj (hcut.symm.trans hsome))
      split
      · next hclose => rw [hclose]
      · next hclose => rw [hclose]

/-- Cutting loses nothing, and gets nothing twice. -/
theorem flatMap_source_tokens (cs : List Char) : (tokens cs).flatMap Token.source = cs := by
  fun_induction tokens cs with
  | case1 cs => simp [Token.source]
  | case2 cs => simp [Token.source]
  | case3 cs before behind hopen inner rest hclose ih =>
      rw [Text.cutAtPair_eq_some hopen, Text.cutAtPair_eq_some hclose]
      simp [Token.source, ih]

/-! ## Rendering -/

/-- What a token is rendered as. -/
def Token.render (context : Context) : Token → List Char
  | .text cs => cs
  | .hole cs =>
      if Text.allBlank cs then (Token.hole cs).source
      else (context.lookup (String.ofList cs)).plainText.toList

theorem flatMap_render_attach (context : Context) (cs : List Char) (parts : List Part) :
    (attach cs parts).flatMap (Part.render context) =
      cs ++ parts.flatMap (Part.render context) := by
  rw [attach.eq_def]
  split
  · simp [Part.render]
  · split
    · next hnil => rw [hnil, List.nil_append]
    · rfl

/-- The value at the path of a hole is the one that is looked up. -/
theorem resolve_parse (context : Context) (text : String) :
    resolve context (Path.parse text).toOption = context.lookup text := by
  rw [resolve, Context.lookup]
  cases Path.parse text <;> rfl

theorem flatMap_render_parts (context : Context) (tokens : List Token) :
    (parts tokens).flatMap (Part.render context) = tokens.flatMap (Token.render context) := by
  induction tokens with
  | nil => rfl
  | cons token rest ih =>
      cases token with
      | text cs => rw [parts, flatMap_render_attach, ih]; rfl
      | hole cs =>
          rw [parts, List.flatMap_cons, Token.render]
          split
          · rw [flatMap_render_attach, ih]
          · rw [List.flatMap_cons, ih, Part.render, resolve_parse]

/-- A template is rendered token by token. -/
theorem toList_render (source : String) (context : Context) :
    ((mk source).render context).toList =
      (tokens source.toList).flatMap (Token.render context) := by
  rw [render, String.toList_ofList, compile, flatMap_render_parts]

/-! ## The grammar -/

section Grammar

variable (context : Context) {before : String}

theorem render_of_opens_eq_false {source : String} (hplain : opens source = false) :
    (mk source).render context = source := by
  rw [← String.toList_inj, toList_render, tokens_of_cutAtPair_eq_none]
  · simp [Token.render]
  · exact Text.cutAtPair_eq_none_iff.2 (String.mentions_eq_false_iff.1 hplain)

/-- Behind the first opening pair of braces everything hangs on the next closing pair. -/
theorem toList_render_append (hopen : opens before = false)
    (hend : before.closesWith "\x7b" = false) (behind : String) :
    ((mk (before ++ "\x7b\x7b" ++ behind)).render context).toList =
      match Text.cutAtPair '}' behind.toList with
      | none => before.toList ++ '{' :: '{' :: behind.toList
      | some (inner, rest) => before.toList ++ (Token.hole inner).render context ++
          ((mk (String.ofList rest)).render context).toList := by
  have hsource : (before ++ "\x7b\x7b" ++ behind).toList =
      before.toList ++ '{' :: '{' :: behind.toList := by simp
  have hcut : Text.cutAtPair '{' (before.toList ++ '{' :: '{' :: behind.toList) =
      some (before.toList, behind.toList) := by
    apply Text.cutAtPair_append
    apply Text.not_infix_append_singleton
    · exact String.mentions_eq_false_iff.1 hopen
    · exact String.closesWith_eq_false_iff.1 hend
  rw [toList_render, hsource, tokens_of_cutAtPair hcut]
  cases Text.cutAtPair '}' behind.toList with
  | none => simp [Token.render]
  | some found => simp [Token.render, toList_render]

/-- A pair of braces that is never closed is text. -/
theorem render_of_unclosed (hopen : opens before = false)
    (hend : before.closesWith "\x7b" = false) {behind : String}
    (hbehind : behind.mentions "\x7d\x7d" = false) :
    (mk (before ++ "\x7b\x7b" ++ behind)).render context = before ++ "\x7b\x7b" ++ behind := by
  have hcut : Text.cutAtPair '}' behind.toList = none :=
    Text.cutAtPair_eq_none_iff.2 (String.mentions_eq_false_iff.1 hbehind)
  rw [← String.toList_inj, toList_render_append context hopen hend, hcut]
  simp

/-- Text, a hole and the rest of a source are rendered one after the other. -/
theorem toList_render_hole (hopen : opens before = false)
    (hend : before.closesWith "\x7b" = false) {token : String}
    (htoken : token.mentions "\x7d\x7d" = false) (hclose : token.closesWith "\x7d" = false)
    (rest : String) :
    ((mk (before ++ "\x7b\x7b" ++ token ++ "\x7d\x7d" ++ rest)).render context).toList =
      before.toList ++ (Token.hole token.toList).render context ++
        ((mk rest).render context).toList := by
  have hsource : before ++ "\x7b\x7b" ++ token ++ "\x7d\x7d" ++ rest =
      before ++ "\x7b\x7b" ++ (token ++ "\x7d\x7d" ++ rest) := by
    simp [String.append_assoc]
  have hbehind : (token ++ "\x7d\x7d" ++ rest).toList =
      token.toList ++ '}' :: '}' :: rest.toList := by simp
  have hcut : Text.cutAtPair '}' (token.toList ++ '}' :: '}' :: rest.toList) =
      some (token.toList, rest.toList) := by
    apply Text.cutAtPair_append
    apply Text.not_infix_append_singleton
    · exact String.mentions_eq_false_iff.1 htoken
    · exact String.closesWith_eq_false_iff.1 hclose
  rw [hsource, toList_render_append context hopen hend, hbehind, hcut]
  simp

end Grammar

/-- What a template is rendered as.  A text without an opening pair of braces is itself,
and so is a pair that is never closed; in front of the first pair every text stays as it
is, a hole is replaced by the text of the value at its path, or kept if it is blank, and
what follows is rendered as a template of its own.  The tokens cover a source from left
to right, each once, and each is rendered by itself, so the text of a value is not looked
at again. -/
theorem render_grammar (context : Context) :
    (∀ source, opens source = false → (mk source).render context = source) ∧
      (∀ before, opens before = false → before.closesWith "\x7b" = false →
        (∀ behind, behind.mentions "\x7d\x7d" = false →
          (mk (before ++ "\x7b\x7b" ++ behind)).render context =
            before ++ "\x7b\x7b" ++ behind) ∧
        ∀ token, token.mentions "\x7d\x7d" = false → token.closesWith "\x7d" = false →
          ∀ rest, (mk (before ++ "\x7b\x7b" ++ token ++ "\x7d\x7d" ++ rest)).render context =
            (if token.isBlank then before ++ "\x7b\x7b" ++ token ++ "\x7d\x7d"
              else before ++ (context.lookup token).plainText) ++ (mk rest).render context) ∧
      ∀ source : String, (tokens source.toList).flatMap Token.source = source.toList ∧
        ((mk source).render context).toList =
          (tokens source.toList).flatMap (Token.render context) := by
  refine ⟨fun source => render_of_opens_eq_false context, fun before hopen hend => ?_,
    fun source => ⟨flatMap_source_tokens _, toList_render source context⟩⟩
  refine ⟨fun behind => render_of_unclosed context hopen hend, ?_⟩
  intro token htoken hclose rest
  rw [← String.toList_inj, toList_render_hole context hopen hend htoken hclose, Token.render,
    String.ofList_toList, String.isBlank]
  split <;> simp [Token.source]

/-- A greeting whose value holds braces of its own, with a blank hole and a pair that is
never closed behind it. -/
theorem render_grammar_of_greeting :
    let context : Context := { form := Dict.ofList [("name", .str "\x7b\x7bx\x7d\x7d")] }
    (mk "Hi \x7b\x7b form.name \x7d\x7d!\x7b\x7b \x7d\x7d \x7b\x7bx").render context =
      "Hi \x7b\x7bx\x7d\x7d!\x7b\x7b \x7d\x7d \x7b\x7bx" := by
  intro context
  obtain ⟨-, hcut, -⟩ := render_grammar context
  have hname : (context.lookup " form.name ").plainText = "\x7b\x7bx\x7d\x7d" := by decide +kernel
  have hgreeting := (hcut "Hi " (by decide) (by decide)).2 " form.name " (by decide) (by decide)
    "!\x7b\x7b \x7d\x7d \x7b\x7bx"
  have hblank := (hcut "!" (by decide) (by decide)).2 " " (by decide) (by decide) " \x7b\x7bx"
  have hunclosed := (hcut " " (by decide) (by decide)).1 "x" (by decide)
  calc
    _ = "Hi \x7b\x7bx\x7d\x7d" ++ (mk "!\x7b\x7b \x7d\x7d \x7b\x7bx").render context := by
      rw [hname] at hgreeting
      exact hgreeting
    _ = "Hi \x7b\x7bx\x7d\x7d" ++ ("!\x7b\x7b \x7d\x7d" ++ (mk " \x7b\x7bx").render context) :=
      congrArg _ hblank
    _ = "Hi \x7b\x7bx\x7d\x7d" ++ ("!\x7b\x7b \x7d\x7d" ++ " \x7b\x7bx") := by
      exact congrArg _ (congrArg _ hunclosed)
    _ = "Hi \x7b\x7bx\x7d\x7d!\x7b\x7b \x7d\x7d \x7b\x7bx" := by decide

end LivePage.Template
