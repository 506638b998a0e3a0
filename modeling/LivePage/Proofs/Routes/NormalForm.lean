import LivePage.Proofs.Routes
import LivePage.Proofs.Text.Blank

/-!
# The normal form of routes

A route is known by three things: the parts of its path, the locale among them, and the query
and fragment that it keeps.  Under a locale that is one segment of a path, the parts that a route
is made of are the parts that it is read back with, and it is a reference from the root.  So a
route is its own normal form.
-/

namespace LivePage

namespace Url

/-- A text that begins with a slash is no address. -/
theorem parse_slash_cons (cs : List Char) :
    parse (String.ofList ('/' :: cs)) = .error .relativeWithoutBase := by
  obtain ⟨rest, hrest⟩ := significant_slash_cons cs
  rw [parse, read, String.toList_ofList, hrest, scheme?_slash]

end Url

namespace Routes

/-- A text that begins with one slash only stays in the app. -/
theorem isAbsolute_slash_cons (cs : List Char) :
    isAbsolute ('/' :: cs) = ['/', '/'].isPrefixOf ('/' :: cs) := by
  rw [isAbsolute, Url.parse_slash_cons, Bool.or_false]

/-! ## Parts of paths -/

/-- A path without one leading `./`. -/
def withoutDot (path : List Char) : List Char :=
  if ['.', '/'] <+: path then path.drop 2 else path

/-- A path from the root does not begin with a dot. -/
theorem withoutDot_join (parts : List (List Char)) : withoutDot (join parts) = join parts := by
  rw [withoutDot, if_neg]
  rintro ⟨behind, hbehind⟩
  obtain ⟨rest, hrest⟩ := slash_prefix_join parts []
  rw [List.append_nil, ← hbehind] at hrest
  simp at hrest

/-- What stands between the slashes of a path, but for empty parts. -/
def partsOf (path : List Char) : List (List Char) :=
  (Text.splitAt '/' path).filter (· ≠ [])

theorem segments_eq_partsOf (path : List Char) : segments path = partsOf (withoutDot path) := by
  rw [segments.eq_def, withoutDot, partsOf]
  split
  · next behind =>
      rw [if_pos ⟨behind, rfl⟩, List.drop_succ_cons, List.drop_succ_cons, List.drop_zero]
  · next hdot =>
      rw [if_neg]
      rintro ⟨behind, hbehind⟩
      exact hdot behind hbehind.symm

/-- A text is its path with its query and fragment behind it. -/
theorem pathOf_append_tail (target : List Char) :
    pathOf target ++ (Url.splitPath target).2 = target := by
  rw [pathOf, Url.splitPath, List.span_eq_takeWhile_dropWhile, List.takeWhile_append_dropWhile]

section Segments

variable {parts : List (List Char)} (hparts : ∀ part ∈ parts, IsSegment part)

include hparts

theorem partsOf_join : partsOf (join parts) = parts := by
  have hfilter : parts.filter (· ≠ []) = parts :=
    List.filter_eq_self.2 fun part hpart => by simpa using (hparts part hpart).ne_nil
  rw [join]
  split
  · next hnone =>
      rw [hnone]
      rfl
  · have hsplit := splitAt_append_segments hparts []
    rw [List.nil_append] at hsplit
    rw [partsOf, hsplit, List.filter_append, hfilter]
    rfl

theorem pathOf_join {tail : List Char} (htail : pathOf tail = []) :
    pathOf (join parts ++ tail) = join parts := by
  rw [join]
  split
  · rw [pathOf_append, if_pos (by decide), htail, List.append_nil]
  · exact pathOf_segments hparts tail htail

/-- The path of a route ends in a slash only at the root. -/
theorem join_eq_root_of_getLast? (hlast : (join parts).getLast? = some '/') :
    join parts = ['/'] := by
  rw [join] at hlast ⊢
  split
  · rfl
  · next hne =>
      rw [if_neg hne] at hlast
      obtain ⟨before, last, rfl⟩ := (List.eq_nil_or_concat' parts).resolve_left hne
      have hpart := hparts last (List.mem_append_right _ (List.mem_singleton_self last))
      rw [List.flatMap_append, List.flatMap_singleton, ← List.singleton_append,
        ← List.append_assoc, List.getLast?_append_of_ne_nil _ hpart.ne_nil] at hlast
      exact absurd (List.mem_of_getLast? hlast) hpart.slash_not_mem

theorem isClean_join : IsClean (join parts) := by
  cases parts with
  | nil => exact ⟨rfl, .inl rfl⟩
  | cons first later =>
      obtain ⟨hfirst, hlater⟩ := List.forall_mem_cons.1 hparts
      have hjoin := join_cons_append first later []
      rw [List.append_nil, List.append_nil] at hjoin
      rw [hjoin, isClean_slash_cons, splitAt_append_segments hlater,
        Text.splitAt_of_not_mem hfirst.slash_not_mem]
      exact .inr fun hmem => (hparts [] hmem).ne_nil rfl

end Segments

/-! ## The locale of a route -/

/-- Parts of a path begin with a locale: with the one of the routes, or with another known one. -/
def BeginsLocal (routes : Routes) (locale : String) (parts : List (List Char)) : Prop :=
  ∃ first ∈ parts.head?, locale.toList = first ∨ ∃ known ∈ routes.locales, known.toList = first

theorem missingLocale_eq_some_iff {routes : Routes} {locale : String}
    {parts : List (List Char)} :
    routes.missingLocale parts = some locale ↔
      routes.locale = some locale ∧ ¬routes.BeginsLocal locale parts := by
  rw [missingLocale, Option.filter_eq_some_iff, BeginsLocal]
  cases parts.head? with
  | none => simp
  | some first => simp

/-- No locale is missing where parts begin with it. -/
theorem missingLocale_eq_none_iff {routes : Routes} {parts : List (List Char)} :
    routes.missingLocale parts = none ↔
      ∀ locale ∈ routes.locale, routes.BeginsLocal locale parts := by
  rw [Option.eq_none_iff_forall_ne_some]
  constructor
  · intro hnone locale hlocale
    by_contra hbegins
    exact hnone locale (missingLocale_eq_some_iff.2 ⟨hlocale, hbegins⟩)
  · intro hbegins locale hmissing
    obtain ⟨hlocale, hnot⟩ := missingLocale_eq_some_iff.1 hmissing
    exact hnot (hbegins locale hlocale)

/-- The parts of a path with the locale in front that is missing. -/
def localized (routes : Routes) (parts : List (List Char)) : List (List Char) :=
  (routes.missingLocale parts).toList.map String.toList ++ parts

/-- No locale is missing twice. -/
theorem localized_localized (routes : Routes) (parts : List (List Char)) :
    routes.localized (routes.localized parts) = routes.localized parts := by
  have hnone : routes.missingLocale (routes.localized parts) = none := by
    cases hmissing : routes.missingLocale parts with
    | none => rwa [localized, hmissing]
    | some locale =>
        rw [localized, hmissing, missingLocale_eq_none_iff]
        intro other hother
        obtain ⟨hlocale, -⟩ := missingLocale_eq_some_iff.1 hmissing
        obtain rfl := Option.some.inj (hlocale.symm.trans hother)
        exact ⟨locale.toList, rfl, .inl rfl⟩
  rw [localized, hnone]
  rfl

/-! ## Routes -/

theorem isSegment_of_mem_localized {routes : Routes}
    (hlocale : ∀ locale ∈ routes.locale, IsSegment locale.toList) {parts : List (List Char)}
    (hparts : ∀ part ∈ parts, IsSegment part) :
    ∀ part ∈ routes.localized parts, IsSegment part := by
  intro part hpart
  rcases List.mem_append.1 hpart with hfront | hpart
  · obtain ⟨locale, hmissing, rfl⟩ := List.mem_map.1 hfront
    exact hlocale locale (missingLocale_eq_some_iff.1 (Option.mem_toList.1 hmissing)).1
  · exact hparts part hpart

theorem toList_normalize_of_isAbsolute (routes : Routes) {raw : String}
    (habsolute : isAbsolute (Text.trim raw.toList) = true) :
    (routes.normalize raw).toList = Text.trim raw.toList := by
  rw [normalize, if_pos habsolute, String.toList_ofList]

/-- A path of parts stays a path from the root, whatever stands behind it, and is read back as
these parts. -/
theorem toList_normalize_of_join (routes : Routes) {route : String} {parts : List (List Char)}
    {tail : List Char} (hparts : ∀ part ∈ parts, IsSegment part) (htail : pathOf tail = [])
    (hroute : route.toList = join parts ++ tail) (htrim : Text.trim route.toList = route.toList) :
    (routes.normalize route).toList = join (routes.localized parts) ++ tail := by
  obtain ⟨behind, hbehind⟩ := slash_prefix_join parts tail
  have hrooted : route.toList = '/' :: behind := hroute.trans hbehind.symm
  have hrelative : isAbsolute (Text.trim route.toList) = false := by
    have hslashes := slashes_prefix_join_iff none hparts htail
    rw [Option.toList_none, List.map_nil, List.nil_append, ← hroute, hrooted] at hslashes
    rw [htrim, hrooted, isAbsolute_slash_cons, Bool.eq_false_iff, Ne, List.isPrefixOf_iff_prefix,
      hslashes]
    simp
  have hpath : pathOf route.toList = join parts := hroute ▸ pathOf_join hparts htail
  have hbehindPath : (Url.splitPath route.toList).2 = tail := by
    have hwhole := (pathOf_append_tail route.toList).trans hroute
    rw [hpath] at hwhole
    exact List.append_cancel_left hwhole
  have hwritten : targetSegments route = parts := by
    rw [targetSegments, htrim, hpath, segments_eq_partsOf, withoutDot_join, partsOf_join hparts]
  rw [toList_normalize routes hrelative, htrim, hwritten, hbehindPath]
  rfl

/-- The parts of a route are segments. -/
theorem isSegment_of_mem_parts {routes : Routes}
    (hlocale : ∀ locale ∈ routes.locale, IsSegment locale.toList) (raw : String) :
    ∀ part ∈ routes.localized (targetSegments raw), IsSegment part :=
  isSegment_of_mem_localized hlocale fun _ => isSegment_of_mem_targetSegments

/-- A route that does not end in a blank character is its own normal form. -/
theorem normalize_normalize {routes : Routes}
    (hlocale : ∀ locale ∈ routes.locale, IsSegment locale.toList) {raw : String}
    (hend : ∀ c ∈ (routes.normalize raw).toList.getLast?, Text.isBlank c = false) :
    routes.normalize (routes.normalize raw) = routes.normalize raw := by
  apply String.toList_injective
  cases habsolute : isAbsolute (Text.trim raw.toList) with
  | true =>
      have hroute := toList_normalize_of_isAbsolute routes habsolute
      have htrim : Text.trim (routes.normalize raw).toList = Text.trim raw.toList := by
        rw [hroute, Text.trim_trim]
      have hagain := toList_normalize_of_isAbsolute routes (htrim.symm ▸ habsolute)
      exact hagain.trans (htrim.trans hroute.symm)
  | false =>
      have hroute := toList_normalize routes habsolute
      change _ = join (routes.localized (targetSegments raw)) ++ _ at hroute
      -- the route begins with a slash, so only blank characters at its end could be trimmed
      have htrim : Text.trim (routes.normalize raw).toList = (routes.normalize raw).toList := by
        refine Text.trim_eq_self_iff.2 ⟨fun c hc => ?_, hend⟩
        obtain ⟨behind, hbehind⟩ := slash_prefix_join (routes.localized (targetSegments raw))
          (Url.splitPath (Text.trim raw.toList)).2
        rw [hroute, ← hbehind] at hc
        rw [← Option.some.inj hc]
        decide
      rw [toList_normalize_of_join routes (isSegment_of_mem_parts hlocale raw) (pathOf_tail _)
        hroute htrim, localized_localized]
      exact hroute.symm

/-- The normal form of routes.  An absolute target is only trimmed.  Any other one becomes a path
from the root with the query and fragment of the target behind it.  The path has no empty part
and ends in a slash only at the root; its parts are those that the target is written with, behind
the locale exactly if they do not begin with a locale already.  A route that does not end in a
blank character is its own normal form. -/
theorem normal_form (routes : Routes) (hlocale : ∀ locale ∈ routes.locale, IsSegment locale.toList)
    (raw : String) :
    let target := Text.trim raw.toList
    let written := partsOf (withoutDot (pathOf target))
    let route := (routes.normalize raw).toList
    (isAbsolute target = true → route = target) ∧
    (isAbsolute target = false → ∃ path tail,
      route = path ++ tail ∧ target = pathOf target ++ tail ∧
      pathOf path = path ∧ IsClean path ∧ (path.getLast? = some '/' → path = ['/']) ∧
      (∀ locale ∈ routes.locale, ¬routes.BeginsLocal locale written →
        partsOf path = locale.toList :: written) ∧
      ((∀ locale ∈ routes.locale, routes.BeginsLocal locale written) → partsOf path = written)) ∧
    ((∀ c ∈ route.getLast?, Text.isBlank c = false) →
      routes.normalize (routes.normalize raw) = routes.normalize raw) := by
  intro target written route
  have hwritten : targetSegments raw = written := segments_eq_partsOf _
  have hparts : ∀ part ∈ routes.localized written, IsSegment part :=
    hwritten ▸ isSegment_of_mem_parts hlocale raw
  have hrelative (hnot : isAbsolute target = false) :
      route = join (routes.localized written) ++ (Url.splitPath target).2 :=
    hwritten ▸ toList_normalize routes hnot
  refine ⟨toList_normalize_of_isAbsolute routes, fun hnot => ?_, normalize_normalize hlocale⟩
  refine ⟨_, _, hrelative hnot, (pathOf_append_tail target).symm, ?_, isClean_join hparts,
    join_eq_root_of_getLast? hparts, fun locale hsome hbegins => ?_, fun hbegins => ?_⟩
  · have hpath : pathOf (join (routes.localized written) ++ []) =
        join (routes.localized written) := pathOf_join hparts rfl
    rwa [List.append_nil] at hpath
  · rw [partsOf_join hparts, localized, missingLocale_eq_some_iff.2 ⟨hsome, hbegins⟩]
    rfl
  · rw [partsOf_join hparts, localized, missingLocale_eq_none_iff.2 hbegins]
    rfl

/-- A target with a dot, needless slashes and a query is written anew under the locale, and stays
as it is from then on. -/
theorem normal_form_of_orders :
    let routes : Routes := { locale := some "pt", locales := ["en"] }
    let raw := " ./orders//7/?next=/a "
    (∃ path, (routes.normalize raw).toList = path ++ "?next=/a".toList ∧ IsClean path ∧
      partsOf path = ["pt".toList, "orders".toList, "7".toList]) ∧
      routes.normalize (routes.normalize raw) = routes.normalize raw := by
  intro routes raw
  have hlocale : ∀ locale ∈ routes.locale, IsSegment locale.toList := by
    intro locale hlocale
    obtain rfl := Option.some.inj hlocale
    exact ⟨by decide, by decide, by decide⟩
  obtain ⟨-, hrelative, hstable⟩ := normal_form routes hlocale raw
  have htrim : Text.trim raw.toList = "./orders//7/".toList ++ "?next=/a".toList := by
    decide +kernel
  have hpath : pathOf (Text.trim raw.toList) = "./orders//7/".toList := by decide +kernel
  have hwritten : partsOf (withoutDot (pathOf (Text.trim raw.toList))) =
      ["orders".toList, "7".toList] := by
    decide +kernel
  obtain ⟨path, tail, hroute, htail, -, hclean, -, hmissing, -⟩ := hrelative (by decide +kernel)
  rw [hpath, htrim] at htail
  rw [← List.append_cancel_left htail] at hroute
  refine ⟨⟨path, hroute, hclean, ?_⟩, hstable ?_⟩
  · rw [hmissing "pt" rfl, hwritten]
    rw [hwritten]
    rintro ⟨first, hfirst, hlocal⟩
    obtain rfl := Option.some.inj hfirst
    revert hlocal
    decide
  · rw [hroute]
    intro c hc
    obtain rfl : 'a' = c := by simpa using hc
    decide

end Routes

end LivePage
