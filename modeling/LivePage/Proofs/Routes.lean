import Mathlib.Data.List.TakeWhile
import LivePage.Page.Validation
import LivePage.Proofs.Text.Cut
import LivePage.Run.Session

/-!
# Where navigation leads

A target that is not absolute becomes a path from the root: a locale that is missing, the
segments of the target, and its query and fragment behind them.  The segments are never empty,
but the locale is put in front as the page has it, and no page is refused for its locales.  So
whether a route begins with one slash only, and whether its path has an empty segment, depends
on the locale.

A reference that begins with one slash stays with the origin of its base.  In a reference tabs and
line ends do not count, and a backslash behind the first slash counts as another.
-/

namespace LivePage

/-! ## Rooted references -/

namespace Url

/-- Where the requests of an address go: its scheme, host and port. -/
def origin (url : Url) : String × Option Host × Option Nat :=
  (url.scheme, url.host, url.port)

theorem origin_withTail (url : Url) (cs : List Char) : (withTail url cs).origin = url.origin := by
  unfold withTail
  split <;> rfl

/-- A slash in front of a text counts. -/
theorem significant_slash_cons (cs : List Char) :
    ∃ rest, significant ('/' :: cs) = '/' :: rest := by
  have houter : ¬isOuterBlank '/' = true := by decide
  have hinner : isInnerBlank '/' = false := by decide
  rw [significant, List.dropWhile_cons_of_neg houter, List.reverse_cons, List.dropWhile_append]
  split
  · exact ⟨[], by decide⟩
  · simp [hinner]

theorem scheme?_slash (cs : List Char) : scheme? ('/' :: cs) = none := by
  have hslash : ¬isSchemeChar '/' = true := by decide
  rw [scheme?, List.takeWhile_cons_of_neg hslash]

/-- A reference that begins with one slash stays with the origin of its base. -/
theorem join_of_one_slash {base : Url} (hfile : base.scheme ≠ "file")
    (hrooted : base.isRootless = false) {reference : String} {rest : List Char}
    (hslash : significant reference.toList = '/' :: rest)
    (hsecond : ∀ c ∈ rest.head?, isSlash c = false) :
    ∃ url, base.join reference = .ok url ∧ url.origin = base.origin := by
  have hread : base.join reference = readRelative base ('/' :: rest) := by
    rw [join, read, hslash, scheme?_slash]
    simp [hrooted, hfile]
  rw [hread]
  cases rest with
  | nil => exact ⟨_, rfl, origin_withTail ..⟩
  | cons d behind =>
      have hd : isSlash d = false := hsecond d rfl
      have hpath : readRelative base ('/' :: d :: behind) = .ok (withTail
          { base with path := .rooted (readPath base.scheme [] (splitPath (d :: behind)).1) }
          (splitPath (d :: behind)).2) := by
        simp [readRelative, isSlash.eq_def '/', hd]
      exact ⟨_, hpath, origin_withTail ..⟩

end Url

/-- A page with other locales for its routes. -/
def Page.withRoutes (page : Page) (routes : Routes) : Page :=
  { page with
    settings := { page.settings with locale := routes.locale, locales := routes.locales } }

namespace Routes

/-! ## Paths of targets -/

/-- The path of a target: what stands in front of its query or fragment. -/
def pathOf (target : List Char) : List Char :=
  (Url.splitPath target).1

/-- The segments that a target of navigation is written with. -/
def targetSegments (raw : String) : List (List Char) :=
  segments (pathOf (Text.trim raw.toList))

/-- Whether a path begins at the root and has no empty segment; the root has none at all. -/
def IsClean (path : List Char) : Prop :=
  path.head? = some '/' ∧ (path.tail = [] ∨ [] ∉ Text.splitAt '/' path.tail)

instance : DecidablePred IsClean :=
  fun _ => inferInstanceAs (Decidable (_ ∧ _))

theorem isClean_slash_cons {body : List Char} :
    IsClean ('/' :: body) ↔ body = [] ∨ [] ∉ Text.splitAt '/' body := by
  simp [IsClean]

theorem pathOf_eq_takeWhile (target : List Char) :
    pathOf target = target.takeWhile fun c => c != '?' && c != '#' := by
  rw [pathOf, Url.splitPath, List.span_eq_takeWhile_dropWhile]

/-- A segment as a target is left with: it is not empty and stays within one path. -/
structure IsSegment (segment : List Char) : Prop where
  ne_nil : segment ≠ []
  slash_not_mem : '/' ∉ segment
  pathOf_eq : pathOf segment = segment

theorem pathOf_eq_self_iff {target : List Char} :
    pathOf target = target ↔ '?' ∉ target ∧ '#' ∉ target := by
  rw [pathOf_eq_takeWhile, List.takeWhile_eq_self_iff]
  constructor
  · intro hall
    exact ⟨fun hquery => absurd (hall _ hquery) (by decide),
      fun hfragment => absurd (hall _ hfragment) (by decide)⟩
  · rintro ⟨hquery, hfragment⟩ c hc
    simp [ne_of_mem_of_not_mem hc hquery, ne_of_mem_of_not_mem hc hfragment]

/-- A path goes on behind a text that holds neither query nor fragment. -/
theorem pathOf_append (front behind : List Char) :
    pathOf (front ++ behind) =
      if pathOf front = front then front ++ pathOf behind else pathOf front := by
  simp only [pathOf_eq_takeWhile, List.takeWhile_append]
  congr 1
  rw [eq_iff_iff]
  exact ⟨fun hlength => (List.takeWhile_prefix _).eq_of_length hlength, fun heq => by rw [heq]⟩

theorem pathOf_pathOf (target : List Char) : pathOf (pathOf target) = pathOf target := by
  rw [pathOf_eq_takeWhile target, pathOf_eq_takeWhile, List.takeWhile_idem]

/-- The query and fragment of a target stand outside of every path. -/
theorem pathOf_tail (target : List Char) : pathOf (Url.splitPath target).2 = [] := by
  rw [pathOf_eq_takeWhile, Url.splitPath, List.span_eq_takeWhile_dropWhile,
    List.takeWhile_eq_nil_iff]
  exact fun hlength => List.dropWhile_get_zero_not _ _ hlength

theorem isSegment_of_mem_targetSegments {raw : String} {segment : List Char}
    (hsegment : segment ∈ targetSegments raw) : IsSegment segment := by
  generalize hpath : pathOf (Text.trim raw.toList) = path at *
  have hfree : pathOf path = path := by rw [← hpath, pathOf_pathOf]
  rw [targetSegments, hpath, segments.eq_def, List.mem_filter, decide_eq_true_eq] at hsegment
  obtain ⟨hmem, hne⟩ := hsegment
  rw [pathOf_eq_self_iff] at hfree
  have hchars : ∀ c ∈ segment, c ∈ path := by
    intro c hc
    have hc := Text.mem_of_mem_splitAt hmem hc
    split at hc
    · exact List.mem_cons_of_mem _ (List.mem_cons_of_mem _ hc)
    · exact hc
  exact ⟨hne, Text.not_mem_of_mem_splitAt hmem,
    pathOf_eq_self_iff.2 ⟨mt (hchars _) hfree.1, mt (hchars _) hfree.2⟩⟩

/-! ## Texts with segments behind them -/

section Rooted

variable {later : List (List Char)} (hlater : ∀ segment ∈ later, IsSegment segment)

include hlater

/-- Segments behind a text are parts of their own. -/
theorem splitAt_append_segments (first : List Char) :
    Text.splitAt '/' (first ++ later.flatMap ('/' :: ·)) = Text.splitAt '/' first ++ later := by
  induction later generalizing first with
  | nil => simp
  | cons segment rest ih =>
      obtain ⟨hsegment, hrest⟩ := List.forall_mem_cons.1 hlater
      rw [List.flatMap_cons, List.cons_append, Text.splitAt_append, ih hrest,
        Text.splitAt_of_not_mem hsegment.slash_not_mem, List.singleton_append]

theorem pathOf_segments (tail : List Char) (htail : pathOf tail = []) :
    pathOf (later.flatMap ('/' :: ·) ++ tail) = later.flatMap ('/' :: ·) := by
  induction later with
  | nil => exact htail
  | cons segment rest ih =>
      obtain ⟨hsegment, hrest⟩ := List.forall_mem_cons.1 hlater
      have hslash : pathOf ('/' :: segment) = '/' :: segment := by
        rw [← List.singleton_append, pathOf_append, if_pos (by decide), hsegment.pathOf_eq]
      rw [List.flatMap_cons, List.append_assoc, pathOf_append, if_pos hslash, ih hrest]

/-- The path of a route is clean exactly if the text in front of its segments is, and that is not
empty unless there are no segments. -/
theorem isClean_pathOf_iff (first : List Char) {tail : List Char} (htail : pathOf tail = []) :
    IsClean (pathOf ('/' :: (first ++ (later.flatMap ('/' :: ·) ++ tail)))) ↔
      IsClean ('/' :: pathOf first) ∧ (first = [] → later = []) := by
  rw [← List.singleton_append, pathOf_append, if_pos (by decide), List.singleton_append,
    pathOf_append, pathOf_segments hlater tail htail]
  split
  · next hfirst =>
      rw [hfirst, isClean_slash_cons, isClean_slash_cons, splitAt_append_segments hlater,
        List.mem_append, not_or]
      have hsegments : [] ∉ later := fun hmem => (hlater [] hmem).ne_nil rfl
      by_cases hnil : first = []
      · subst hnil
        cases later <;> simp [Text.splitAt]
      · simp [hnil, hsegments]
  · next hfirst =>
      have hne : first ≠ [] := by
        rintro rfl
        exact hfirst rfl
      simp [hne]

omit hlater in
/-- A route begins with two slashes exactly if the text in front of its segments begins with one,
or is empty and there are segments. -/
theorem slashes_prefix_iff (first : List Char) {tail : List Char} (htail : pathOf tail = []) :
    ['/', '/'] <+: '/' :: (first ++ (later.flatMap ('/' :: ·) ++ tail)) ↔
      ['/'] <+: first ∨ (first = [] ∧ later ≠ []) := by
  have hslash : ¬['/'] <+: tail := by
    rintro ⟨rest, rfl⟩
    rw [pathOf_append, if_pos (by decide)] at htail
    cases htail
  rw [List.cons_prefix_cons, and_iff_right rfl]
  cases first with
  | nil =>
      cases later with
      | nil => simpa using hslash
      | cons segment rest => simp
  | cons a rest => simp [List.cons_prefix_cons]

end Rooted

/-! ## Routes -/

/-- The first part stands behind a slash of its own, the later ones each behind theirs. -/
theorem join_cons_append (first : List Char) (later : List (List Char)) (tail : List Char) :
    join (first :: later) ++ tail =
      '/' :: (first ++ (later.flatMap ('/' :: ·) ++ tail)) := by
  simp [join]

theorem slash_prefix_join (parts : List (List Char)) (tail : List Char) :
    ['/'] <+: join parts ++ tail := by
  cases parts with
  | nil => exact ⟨tail, rfl⟩
  | cons first later => exact ⟨_, (join_cons_append first later tail).symm⟩

section Front

variable (front : Option String) {segments : List (List Char)}
  (hsegments : ∀ segment ∈ segments, IsSegment segment) {tail : List Char}
  (htail : pathOf tail = [])

include hsegments htail

theorem slashes_prefix_join_iff :
    ['/', '/'] <+: join (front.toList.map String.toList ++ segments) ++ tail ↔
      ∃ locale ∈ front, ['/'] <+: locale.toList ∨ (locale = "" ∧ segments ≠ []) := by
  cases front with
  | some locale =>
      rw [Option.toList_some, List.map_singleton, List.singleton_append, join_cons_append,
        slashes_prefix_iff _ htail]
      simp
  | none =>
      cases segments with
      | nil => exact (@slashes_prefix_iff [] [] tail htail).trans (by simp)
      | cons first later =>
          have hfirst := hsegments first List.mem_cons_self
          rw [Option.toList_none, List.map_nil, List.nil_append, join_cons_append,
            slashes_prefix_iff _ htail]
          have hslash : ¬['/'] <+: first := by
            rintro ⟨rest, rfl⟩
            exact hfirst.slash_not_mem List.mem_cons_self
          simp [hslash, hfirst.ne_nil]

theorem isClean_pathOf_join_iff :
    IsClean (pathOf (join (front.toList.map String.toList ++ segments) ++ tail)) ↔
      ∀ locale ∈ front, IsClean ('/' :: pathOf locale.toList) ∧ (locale = "" → segments = []) := by
  cases front with
  | some locale =>
      rw [Option.toList_some, List.map_singleton, List.singleton_append, join_cons_append,
        isClean_pathOf_iff hsegments _ htail]
      simp
  | none =>
      cases segments with
      | nil =>
          have hroot : IsClean ('/' :: pathOf []) := by decide
          exact (isClean_pathOf_iff hsegments [] htail).trans (by simp [hroot])
      | cons first later =>
          obtain ⟨hfirst, hlater⟩ := List.forall_mem_cons.1 hsegments
          rw [Option.toList_none, List.map_nil, List.nil_append, join_cons_append,
            isClean_pathOf_iff hlater _ htail, hfirst.pathOf_eq, isClean_slash_cons,
            Text.splitAt_of_not_mem hfirst.slash_not_mem, List.mem_singleton]
          simp [hfirst.ne_nil, hfirst.ne_nil.symm]

end Front

/-- A target that is not absolute is written anew: the missing locale, its segments and its
tail. -/
theorem toList_normalize (routes : Routes) {raw : String}
    (hrelative : isAbsolute (Text.trim raw.toList) = false) :
    (routes.normalize raw).toList =
      join ((routes.missingLocale (targetSegments raw)).toList.map String.toList ++
        targetSegments raw) ++ (Url.splitPath (Text.trim raw.toList)).2 := by
  rw [normalize, hrelative, if_neg Bool.false_ne_true, String.toList_ofList]
  rfl

/-- A target that is not absolute becomes a route from the root.  It begins with two slashes, or
its path has an empty segment, only through the locale that is put in front of it: an empty one,
or one with slashes to that effect.  No page is refused for its locales.  Resolved against an
address, a route stays with its origin unless the second counting character is a slash or a
backslash. -/
theorem in_app_unless_locale (routes : Routes) {raw : String}
    (hrelative : isAbsolute (Text.trim raw.toList) = false) :
    let segments := targetSegments raw
    let front := routes.missingLocale segments
    let route := (routes.normalize raw).toList
    ['/'] <+: route ∧
    (['/', '/'] <+: route ↔
      ∃ locale ∈ front, ['/'] <+: locale.toList ∨ (locale = "" ∧ segments ≠ [])) ∧
    (IsClean (pathOf route) ↔
      ∀ locale ∈ front, IsClean ('/' :: pathOf locale.toList) ∧ (locale = "" → segments = [])) ∧
    (∀ base : Url, base.scheme ≠ "file" → base.isRootless = false →
      (∀ c ∈ (Url.significant route)[1]?, Url.isSlash c = false) →
      ∃ url, base.join (routes.normalize raw) = .ok url ∧ url.origin = base.origin) ∧
    ∀ page : Page, (page.withRoutes routes).validate = page.validate ∧
      (Session.ofPage (page.withRoutes routes)).engine.routes = routes := by
  intro segments front route
  have hsegments : ∀ segment ∈ segments, IsSegment segment :=
    fun _ => isSegment_of_mem_targetSegments
  have htail := pathOf_tail (Text.trim raw.toList)
  have hroute : route = join (front.toList.map String.toList ++ segments) ++
      (Url.splitPath (Text.trim raw.toList)).2 := toList_normalize routes hrelative
  have hrooted : ['/'] <+: route := hroute ▸ slash_prefix_join ..
  refine ⟨hrooted, hroute ▸ slashes_prefix_join_iff front hsegments htail,
    hroute ▸ isClean_pathOf_join_iff front hsegments htail, ?_, fun page => ⟨rfl, rfl⟩⟩
  intro base hfile hbase hsecond
  obtain ⟨behind, hbehind⟩ := hrooted
  obtain ⟨rest, hrest⟩ := Url.significant_slash_cons behind
  rw [List.singleton_append] at hbehind
  rw [← hbehind, hrest] at hsecond
  refine Url.join_of_one_slash hfile hbase (hbehind ▸ hrest) ?_
  rwa [List.getElem?_cons_succ, ← List.head?_eq_getElem?] at hsecond

/-- Under an empty locale `orders` begins with two slashes and leads to the host `orders`, and the
page is not refused; without a locale it stays in the app. -/
theorem in_app_unless_locale_of_empty :
    let routes : Routes := { locale := some "" }
    let base : Url := { scheme := "http", host := some (.name "app") }
    isAbsolute (Text.trim "orders".toList) = false ∧
    ['/', '/'] <+: (routes.normalize "orders").toList ∧
    ¬IsClean (pathOf (routes.normalize "orders").toList) ∧
    (base.join (routes.normalize "orders")).map (·.host) = .ok (some (.name "orders")) ∧
    (({} : Page).withRoutes routes).validate = ([], none) ∧
    ∃ url, base.join (normalize {} "orders") = .ok url ∧ url.origin = base.origin := by
  intro routes base
  have hrelative : isAbsolute (Text.trim "orders".toList) = false := by decide +kernel
  obtain ⟨-, hslashes, hclean, -, hvalid⟩ := in_app_unless_locale routes hrelative
  obtain ⟨-, -, -, hhost, -⟩ := in_app_unless_locale {} hrelative
  have hroute : normalize {} "orders" = "/orders" := by decide +kernel
  have hletter : (Url.significant "/orders".toList)[1]? = some 'o' := by decide +kernel
  have hsecond : ∀ c ∈ (Url.significant (normalize {} "orders").toList)[1]?,
      Url.isSlash c = false := by
    rw [hroute, hletter]
    intro c hc
    rw [← Option.some.inj hc]
    decide
  obtain ⟨url, hurl, horigin⟩ := hhost base (by decide) (by decide) hsecond
  refine ⟨hrelative, hslashes.2 (by decide +kernel), mt hclean.1 (by decide +kernel),
    by decide +kernel, ?_, url, hurl, horigin⟩
  rw [(hvalid {}).1]
  decide +kernel

end Routes

end LivePage
