import BleKbdHost.Hid.Acceptance

/-!
# Memory safety of the report map parser

For arbitrary descriptor bytes the parser reads only inside the descriptor and returns a map whose
entries all come from this call, with one exception: when every item is accepted but no report was
recorded, the final block reads through the `NULL` accumulator. `parsesSafely_iff` is the exact
borderline, stated on the items and collections of the descriptor.
-/

namespace BleKbdHost.Hid

/-- A first call on these bytes commits no fault, and returns `NULL` or a map with exactly
`reports_len ≤ 64` entries, each of them recorded by a `handle_report` of this call. -/
def ParsesSafely (hidRm : List UInt8) : Prop :=
  ∃ out st, espHidParseReportMap ParserStatics.init hidRm = .ok (out, st) ∧
    ∀ map, out = some map →
      map.reportsLen ≤ 64 ∧ map.reports.length = map.reportsLen.toNat ∧
        map.reports = (reported ParserStatics.start (items hidRm)).flatMap reportItems

/-- An item of the descriptor is turned down: its data is cut off, it does not come next in the header
of a collection, or the reports up to it take more than 64 entries. -/
def TurnedDown (hidRm : List UInt8) : Prop :=
  complete hidRm = false ∨ InOrder .beforePage (items hidRm) = false ∨
    64 < entryCount (collectionsOf hidRm)

/-- Some collection has a stretch that is recorded. -/
def HasReport (hidRm : List UInt8) : Prop := ∃ coll ∈ collectionsOf hidRm, coll.recorded ≠ []

instance (hidRm : List UInt8) : Decidable (HasReport hidRm) :=
  inferInstanceAs (Decidable (∃ coll ∈ collectionsOf hidRm, coll.recorded ≠ []))

/-- An accepted descriptor reaches `handle_report` where it has a stretch that is recorded. -/
theorem reported_eq_nil_iff {hidRm : List UInt8}
    (hok : (handleCmds ParserStatics.start (items hidRm)).2 = true) :
    reported ParserStatics.start (items hidRm) = [] ↔ ¬HasReport hidRm := by
  have hparams : (reported .start (items hidRm)).map HidReportParams.outer =
      (collectionsOf hidRm).flatMap (·.recorded.map Stretch.params) :=
    params_reported (items hidRm) Follows.start hok
  rw [← List.map_eq_nil_iff (f := HidReportParams.outer), hparams, List.flatMap_eq_nil_iff]
  simp only [List.map_eq_nil_iff, HasReport, not_exists, not_and, ne_eq, not_not]

/-- The count of a bounded accumulator fits its byte. -/
theorem TempHidReportMap.reportsLen_toNat (map : TempHidReportMap) :
    map.reportsLen.toNat = map.reports.length := by
  have := map.bounded
  simp only [TempHidReportMap.reportsLen, Nat.toUInt8, UInt8.toNat_ofNat']
  omega

/-- An accepted call on a fresh accumulator: it faults exactly when nothing was recorded. -/
theorem espHidParseReportMap_accepted {hidRm : List UInt8} (hcomplete : complete hidRm = true)
    (hok : (handleCmds ParserStatics.start (items hidRm)).2 = true) :
    (reported ParserStatics.start (items hidRm) = [] ∧
      espHidParseReportMap ParserStatics.init hidRm = .error .nullDeref) ∨
    (reported ParserStatics.start (items hidRm) ≠ [] ∧
      ∃ map : TempHidReportMap,
        map.reports = (reported ParserStatics.start (items hidRm)).flatMap reportItems ∧
        ∃ st, espHidParseReportMap ParserStatics.init hidRm = .ok (some (outMap map), st)) := by
  have hrun : handleCmds { ParserStatics.init with newMap := true } (items hidRm) =
      ((handleCmds ParserStatics.start (items hidRm)).1, true) := Prod.ext rfl hok
  have hrec : Recorded none (reported ParserStatics.start (items hidRm))
      (handleCmds ParserStatics.start (items hidRm)).1 :=
    (Recorded.start ParserStatics.init).handleCmds hok
  rw [espHidParseReportMap_eq hrun, hcomplete]
  simp only [Bool.and_self, ↓reduceIte, finishMap]
  by_cases hps : reported ParserStatics.start (items hidRm) = []
  · left
    exact ⟨hps, by rw [(hrec.untouched hps).2]⟩
  · right
    obtain ⟨-, map, htemp, hreports, -⟩ := hrec.written hps
    exact ⟨hps, map, hreports, _, by rw [htemp]⟩

/-- **The parser is safe exactly** on the descriptors in which an item is turned down and on those
in which some collection has a stretch that is recorded. -/
theorem parsesSafely_iff (hidRm : List UInt8) :
    ParsesSafely hidRm ↔ TurnedDown hidRm ∨ HasReport hidRm := by
  by_cases hall : complete hidRm = true ∧ (handleCmds ParserStatics.start (items hidRm)).2 = true
  · obtain ⟨hcomplete, hok⟩ := hall
    have hkept : ¬TurnedDown hidRm := by
      obtain ⟨horder, hfits⟩ := (accepted_iff hidRm).mp hok
      unfold TurnedDown
      rw [hcomplete, horder]
      simpa using hfits
    have hnil := reported_eq_nil_iff hok
    rcases espHidParseReportMap_accepted hcomplete hok with
      ⟨hps, hfault⟩ | ⟨hps, map, hreports, st, hret⟩
    · refine iff_of_false ?_ (not_or.mpr ⟨hkept, hnil.mp hps⟩)
      rintro ⟨out, st, hret, -⟩
      rw [hfault] at hret
      cases hret
    · refine iff_of_true ⟨_, st, hret, ?_⟩ (.inr (Decidable.byContradiction fun h => hps (hnil.mpr h)))
      rintro _ ⟨⟩
      have hlen := map.reportsLen_toNat
      refine ⟨?_, hlen.symm, hreports⟩
      change map.reportsLen ≤ 64
      rw [UInt8.le_iff_toNat_le, hlen]
      exact map.bounded
  · have hturned : TurnedDown hidRm := by
      rw [accepted_iff, Decidable.not_and_iff_not_or_not, Decidable.not_and_iff_not_or_not] at hall
      unfold TurnedDown
      rwa [← Nat.not_le, ← Bool.not_eq_true, ← Bool.not_eq_true]
    have hrun : handleCmds { ParserStatics.init with newMap := true } (items hidRm) =
        ((handleCmds ParserStatics.start (items hidRm)).1,
          (handleCmds ParserStatics.start (items hidRm)).2) := rfl
    refine iff_of_true ⟨none, (handleCmds ParserStatics.start (items hidRm)).1, ?_, ?_⟩ (.inl hturned)
    · rw [espHidParseReportMap_eq hrun, if_neg]
      rw [Bool.and_eq_true, and_comm]
      exact hall
    · intro map hmap
      cases hmap

/-- The empty descriptor is accepted without a report, and the call dereferences `NULL`. -/
theorem not_parsesSafely_nil : ¬ParsesSafely [] := by
  rintro ⟨out, st, hret, -⟩
  have hfault : espHidParseReportMap ParserStatics.init [] = .error .nullDeref := rfl
  rw [hfault] at hret
  cases hret

end BleKbdHost.Hid
