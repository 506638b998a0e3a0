import Mathlib.Data.List.TakeWhile
import LivePage.Page.Validation

/-!
# Accepted pages

When a page is accepted, and what is then known of its components.
-/

namespace LivePage

namespace Page

/-- A page is accepted if its settings have no fault and no component has a blank id, and then
all components are looked at. -/
theorem validate_eq_iff {page : Page} {warnings : Log} :
    page.validate = (warnings, none) ↔
      page.settingsFault? = none ∧ (∀ entry ∈ page.components.entries, entry.1.isBlank = false) ∧
        warnings = warningsOf page.components.entries := by
  have hnamed : (page.components.entries.takeWhile fun entry => !entry.1.isBlank) =
      page.components.entries ↔ ∀ entry ∈ page.components.entries, entry.1.isBlank = false := by
    simp [List.takeWhile_eq_self_iff]
  rw [validate, ← hnamed]
  cases page.settingsFault? with
  | some fault => simp
  | none =>
      dsimp only
      generalize hprefix : (page.components.entries.takeWhile fun entry => !entry.1.isBlank) = named
      have hle : named <+: page.components.entries := hprefix ▸ List.takeWhile_prefix _
      constructor
      · intro hvalid
        obtain ⟨hwarnings, hlength⟩ := Prod.mk.inj hvalid
        have hall : named = page.components.entries := by
          refine hle.eq_of_length_le (Nat.le_of_not_lt fun hlt => ?_)
          rw [if_pos hlt] at hlength
          cases hlength
        exact ⟨rfl, hall, by rw [← hwarnings, hall]⟩
      · rintro ⟨-, hall, rfl⟩
        rw [hall, if_neg (Nat.lt_irrefl _)]

/-- No component of an accepted page has the empty id. -/
theorem ne_empty_of_validate {page : Page} (hvalid : page.validate.2 = none) {id : String}
    (hid : id ∈ page.components.keys) : id ≠ "" := by
  obtain ⟨-, hnamed, -⟩ := validate_eq_iff.1 (Prod.ext rfl hvalid)
  obtain ⟨entry, hentry, rfl⟩ := List.mem_map.1 hid
  intro hempty
  have hblank := hnamed entry hentry
  rw [hempty] at hblank
  exact absurd hblank (by decide)

end Page

end LivePage
