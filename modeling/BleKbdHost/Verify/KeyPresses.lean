import BleKbdHost.Conc.Trace
import BleKbdHost.Host.Connections
import BleKbdHost.Host.Phases
import BleKbdHost.Verify.KeySteps

/-!
# Key presses and connections

Whether the characters emitted for a connection are those that `translate_report` emits on its
reports from the cleared `s_prev_keys`. The main task clears `s_prev_keys` once it is in the
connected phase, when the reports of the connection may have been coming for a while: the first of
them are translated with what an earlier connection left, and a key that is held over the clearing
is emitted again, whether the clearing falls between two reports or between two keys of one.
-/

namespace BleKbdHost.Host

open Hid Keys Conc

/-! ## The property -/

def Obs.isHandled : Obs → Bool
  | .handled _ => true
  | _ => false

/-- A character other than NUL. -/
def Obs.char? : Obs → Option UInt8
  | .key ch => if ch = 0 then none else some ch
  | _ => none

/-- The characters other than NUL, oldest first. -/
def chars (trace : List Obs) : List UInt8 := (trace.filterMap Obs.char?).reverse

/-- The characters emitted for the events selected, oldest first. Those of an event come between the
end of the event before it and its own. -/
def typed (sel : Posted → Bool) : List Obs → List UInt8
  | [] => []
  | .handled p :: before =>
    typed sel before ++ if sel p then chars (since Obs.isHandled before) else []
  | _ :: before => typed sel before

def Obs.report? (sel : Posted → Bool) : Obs → Option (List UInt8)
  | .handled p => if sel p then p.report? else none
  | _ => none

/-- The reports handled among the events selected, oldest first. -/
def reportsOf (sel : Posted → Bool) (trace : List Obs) : List (List UInt8) :=
  (trace.filterMap (Obs.report? sel)).reverse

/-- The connection that an event belongs to: its device, and how many links of the device had come
up when it was posted. -/
def connOf (p : Posted) (trace : List Obs) : DevId × Nat :=
  (p.event.dev, (upTo (· == .posted p) trace).countP fun o => (o.linkTo? p.event.dev).isSome)

def ofConn (conn : DevId × Nat) (trace : List Obs) (p : Posted) : Bool := connOf p trace == conn

def Obs.decoded? : Obs → Option Posted
  | .handled p => if p.decodes then some p else none
  | _ => none

/-- The last report that was translated. -/
def lastDecoded? (trace : List Obs) : Option Posted := trace.findSome? Obs.decoded?

/-- `s_prev_keys` was cleared since. -/
def clearedSince (trace : List Obs) : Bool :=
  (since (·.decoded?.isSome) trace).contains .prevKeysCleared

/-- The keys of the last report of the connection of an event. -/
def connKeys (p : Posted) (trace : List Obs) : KeySlots :=
  held .cleared (reportsOf (ofConn (connOf p trace) trace) trace)

/-- The last report translated before is of the same connection, with no clearing of `s_prev_keys`
since; or the key is neither among those that others left in `s_prev_keys` nor one that was held. -/
def Sys.follows (s : Sys) (p : Posted) (code : UInt8) : Bool :=
  (lastDecoded? s.trace).any (ofConn (connOf p s.trace) s.trace) && !clearedSince s.trace ||
    !s.kbd.prevKeys.keys.contains code && !(connKeys p s.trace).keys.contains code

/-- Every key that has characters follows the reports of its connection when it is looked up. -/
def followed : Guard Op Choice Sys Event where
  main _ _ _ := true
  env e s :=
    match e, s.hidh.handling with
    | .dispatch, some (p, .compare mod code :: _) =>
      (keyOutput mod code).isEmpty || s.follows p code
    | _, _ => true

/-! ## Growing traces -/

section

variable {l trace : List Obs} {sel sel' : Posted → Bool} {p : Posted}

theorem typed_append (hl : ∀ o ∈ l, o.isHandled = false) :
    typed sel (l ++ trace) = typed sel trace := by
  induction l with
  | nil => rfl
  | cons o l ih =>
    have hrest := ih fun a ha => hl a (List.mem_cons_of_mem o ha)
    cases o with
    | handled q => cases hl _ List.mem_cons_self
    | _ => exact hrest

theorem typed_congr (h : ∀ p, .handled p ∈ trace → sel p = sel' p) :
    typed sel trace = typed sel' trace := by
  induction trace with
  | nil => rfl
  | cons o trace ih =>
    have hrest := ih fun p hp => h p (List.mem_cons_of_mem o hp)
    cases o with
    | handled q => simp only [typed, hrest, h q List.mem_cons_self]
    | _ => exact hrest

theorem reportsOf_append (hl : ∀ o ∈ l, o.isHandled = false) :
    reportsOf sel (l ++ trace) = reportsOf sel trace := by
  have hnone : l.filterMap (Obs.report? sel) = [] := by
    refine List.filterMap_eq_nil_iff.mpr fun o ho => ?_
    have hquiet := hl o ho
    cases o with
    | handled q => cases hquiet
    | _ => rfl
  rw [reportsOf, List.filterMap_append, hnone, List.nil_append, reportsOf]

theorem reportsOf_handled : reportsOf sel (.handled p :: trace) =
    reportsOf sel trace ++ if sel p then p.report?.toList else [] := by
  cases hp : sel p <;> cases hreport : p.report? <;> simp [reportsOf, Obs.report?, hp, hreport]

theorem reportsOf_congr (h : ∀ p, .handled p ∈ trace → sel p = sel' p) :
    reportsOf sel trace = reportsOf sel' trace := by
  unfold reportsOf
  congr 1
  apply List.filterMap_congr
  intro o ho
  cases o with
  | handled q => simp only [Obs.report?, h q ho]
  | _ => rfl

theorem connOf_append (hp : .posted p ∉ l) : connOf p (l ++ trace) = connOf p trace := by
  unfold connOf
  rw [upTo_append]
  intro o ho
  exact beq_eq_false_iff_ne.mpr fun heq => hp (heq ▸ ho)

theorem ofConn_append {conn : DevId × Nat} (hp : .posted p ∉ l) :
    ofConn conn (l ++ trace) p = ofConn conn trace p := by
  unfold ofConn
  rw [connOf_append hp]

/-- The connections of what was handled before do not change. -/
theorem typed_ofConn_append {conn : DevId × Nat} (hl : ∀ o ∈ l, o.isHandled = false)
    (hnew : ∀ p, .handled p ∈ trace → .posted p ∉ l) :
    typed (ofConn conn (l ++ trace)) (l ++ trace) = typed (ofConn conn trace) trace :=
  (typed_append hl).trans (typed_congr fun p hp => ofConn_append (hnew p hp))

theorem reportsOf_ofConn_append {conn : DevId × Nat} (hl : ∀ o ∈ l, o.isHandled = false)
    (hnew : ∀ p, .handled p ∈ trace → .posted p ∉ l) :
    reportsOf (ofConn conn (l ++ trace)) (l ++ trace) = reportsOf (ofConn conn trace) trace :=
  (reportsOf_append hl).trans (reportsOf_congr fun p hp => ofConn_append (hnew p hp))

theorem chars_append : chars (l ++ trace) = chars trace ++ chars l := by
  rw [chars, List.filterMap_append, List.reverse_append, chars, chars]

theorem lastDecoded?_append (hl : ∀ o ∈ l, o.decoded? = none) :
    lastDecoded? (l ++ trace) = lastDecoded? trace := by
  rw [lastDecoded?, List.findSome?_append, List.findSome?_eq_none_iff.mpr hl, Option.none_or,
    lastDecoded?]

theorem clearedSince_append (hl : ∀ o ∈ l, o.decoded? = none) (hclear : .prevKeysCleared ∉ l) :
    clearedSince (l ++ trace) = clearedSince trace := by
  unfold clearedSince
  rw [since_append fun o ho => by rw [hl o ho]; rfl, List.contains_eq_mem, List.contains_eq_mem,
    decide_eq_decide, List.mem_append]
  exact or_iff_right hclear

theorem lastDecoded?_handled (h : lastDecoded? trace = some p) : .handled p ∈ trace := by
  obtain ⟨o, ho, hdecoded⟩ := List.exists_of_findSome?_eq_some h
  cases o with
  | handled q =>
    simp only [Obs.decoded?, Option.ite_none_right_eq_some, Option.some.injEq] at hdecoded
    rwa [← hdecoded.2]
  | _ => cases hdecoded

theorem decoded?_of_not_handled {o : Obs} (h : o.isHandled = false) : o.decoded? = none := by
  cases o with
  | handled q => cases h
  | _ => rfl

end

section

variable {l trace : List Obs} {p : Posted}

theorem connKeys_append (hl : ∀ o ∈ l, o.isHandled = false)
    (hnew : ∀ q, .handled q ∈ trace → .posted q ∉ l) (hp : .posted p ∉ l) :
    connKeys p (l ++ trace) = connKeys p trace := by
  rw [connKeys, connOf_append hp, reportsOf_ofConn_append hl hnew, connKeys]

theorem connKeys_handled (q : Posted) : connKeys p (.handled q :: trace) =
    held (connKeys p trace)
      (if ofConn (connOf p trace) trace q then q.report?.toList else []) := by
  have hconn : ∀ q', connOf q' (.handled q :: trace) = connOf q' trace := fun q' =>
    connOf_append (l := [_]) (by simp)
  have hsel : ofConn (connOf p trace) (.handled q :: trace) = ofConn (connOf p trace) trace := by
    funext q'
    simp only [ofConn, hconn]
  rw [connKeys, hconn, hsel, reportsOf_handled, held_append, connKeys]

end

/-! ## The invariant -/

/-- What was handled is typed as it should be, and `s_prev_keys` has what the last report that was
translated left there, unless it was cleared. -/
structure ReportsDone (v : View) : Prop where
  decoder : ∀ p, lastDecoded? v.trace = some p →
    v.kbd.prevKeys = if clearedSince v.trace then .cleared else connKeys p v.trace
  emitted : v.kbd.cfg.onKey = true → ∀ conn, typed (ofConn conn v.trace) v.trace =
    (emissions .cleared (reportsOf (ofConn conn v.trace) v.trace)).flatten

namespace ReportsDone

variable {v v' : View} {l : List Obs} {p : Posted}

/-- A step in which nothing is handled. -/
theorem frame (h : ReportsDone v) (htrace : v'.trace = l ++ v.trace)
    (hl : ∀ o ∈ l, o.isHandled = false) (hnew : ∀ q, .handled q ∈ v.trace → .posted q ∉ l)
    (hcfg : v'.kbd.cfg.onKey = v.kbd.cfg.onKey)
    (hkeys : .prevKeysCleared ∈ l ∧ v'.kbd.prevKeys = .cleared ∨
      .prevKeysCleared ∉ l ∧ v'.kbd.prevKeys = v.kbd.prevKeys) : ReportsDone v' := by
  have hdecoded : ∀ o ∈ l, o.decoded? = none := fun o ho => decoded?_of_not_handled (hl o ho)
  constructor
  · rw [htrace, lastDecoded?_append hdecoded]
    intro p hlast
    rcases hkeys with ⟨hclear, hkeys⟩ | ⟨hclear, hkeys⟩
    · have hcleared : clearedSince (l ++ v.trace) = true := by
        unfold clearedSince
        rw [since_append fun o ho => by rw [hdecoded o ho]; rfl, List.contains_iff_mem]
        exact List.mem_append_left _ hclear
      rw [hkeys, hcleared]
      rfl
    · rw [hkeys, clearedSince_append hdecoded hclear,
        connKeys_append hl hnew (hnew p (lastDecoded?_handled hlast))]
      exact h.decoder p hlast
  · rw [hcfg, htrace]
    intro hkey conn
    rw [typed_ofConn_append hl hnew, reportsOf_ofConn_append hl hnew]
    exact h.emitted hkey conn

/-- The end of an event whose characters were emitted; its keys are kept if it is a report that is
long enough. -/
theorem finish (h : ReportsDone v) (htrace : v'.trace = .handled p :: v.trace)
    (hcfg : v'.kbd.cfg.onKey = v.kbd.cfg.onKey)
    (hchars : v.kbd.cfg.onKey = true →
      chars (since Obs.isHandled v.trace) = p.output (connKeys p v.trace))
    (hkeys : p.decodes = false ∧ v'.kbd.prevKeys = v.kbd.prevKeys ∨
      ∃ data, p.report? = some data ∧ ¬data.length < 3 ∧ v'.kbd.prevKeys = curKeys data) :
    ReportsDone v' := by
  have hconn : ∀ q, connOf q (.handled p :: v.trace) = connOf q v.trace := fun q =>
    connOf_append (l := [_]) (by simp)
  have hsel : ∀ conn, ofConn conn (.handled p :: v.trace) = ofConn conn v.trace := by
    intro conn
    funext q
    simp only [ofConn, hconn]
  constructor
  · rw [htrace]
    intro q hlast
    rcases hkeys with ⟨hnot, hkeys⟩ | ⟨data, hreport, hlong, hkeys⟩
    · -- no report that is long enough: the last one is as before
      have hquiet : ∀ o ∈ [Obs.handled p], o.decoded? = none := by
        simp [Obs.decoded?, hnot]
      have hshort : ∀ report ∈ (if ofConn (connOf q v.trace) v.trace p then
          p.report?.toList else []), report.length < 3 := by
        intro report hmem
        split at hmem
        · have hreport : p.report? = some report := Option.mem_toList.mp hmem
          simpa [Posted.decodes, hreport] using hnot
        · cases hmem
      rw [← List.singleton_append, lastDecoded?_append hquiet] at hlast
      rw [hkeys, connKeys_handled, held_of_short hshort, ← List.singleton_append,
        clearedSince_append hquiet (by simp)]
      exact h.decoder q hlast
    · have hp : Obs.decoded? (.handled p) = some p := by
        simp [Obs.decoded?, Posted.decodes, hreport, Nat.not_lt.mp hlong]
      have hpq : p = q := by
        simpa [lastDecoded?, hp] using hlast
      subst hpq
      have hnot : clearedSince (.handled p :: v.trace) = false := by
        unfold clearedSince
        rw [since_cons_of_pos (by rw [hp]; rfl)]
        rfl
      have hself : ofConn (connOf p v.trace) v.trace p = true := BEq.rfl
      rw [hnot, hkeys, connKeys_handled, hself, if_pos rfl, hreport]
      have htranslate : translateReport (connKeys p v.trace) data = (curKeys data, _) := if_neg hlong
      exact (congrArg Prod.fst htranslate).symm
  · rw [htrace, hcfg]
    intro hkey conn
    rw [hsel, typed, reportsOf_handled, emissions_append, List.flatten_append]
    refine congr (congrArg _ (h.emitted hkey conn)) ?_
    cases hp : ofConn conn v.trace p with
    | false => rfl
    | true =>
      have hconn' : connOf p v.trace = conn := beq_iff_eq.mp hp
      subst hconn'
      rw [if_pos rfl, if_pos rfl, hchars hkey, Posted.output, connKeys]
      cases p.report? with
      | none => rfl
      | some data => simp only [Option.toList_some, emissions, List.flatten_cons, List.flatten_nil,
          List.append_nil]

end ReportsDone

/-- Where the event task is with the event that it handles, `now`: what was emitted for it, and what
is left of it, are together what it should emit. -/
structure KeysAt (v : View) (now : Option (Posted × List HidhStep)) : Prop extends ReportsDone v where
  idle : v.kbd.cfg.onKey = true → now = none → chars (since Obs.isHandled v.trace) = []
  under : v.kbd.cfg.onKey = true → ∀ p steps, now = some (p, steps) →
    chars (since Obs.isHandled v.trace) ++ (owed v.kbd.wasPressed steps ++
      (keyDecoder.run (connKeys p v.trace) (stepInputs steps)).2) = p.output (connKeys p v.trace)

def KeysInv (v : View) : Prop := KeysAt v v.handling

namespace KeysAt

variable {v v' : View} {l : List Obs} {p : Posted} {steps : List HidhStep}
variable {now : Option (Posted × List HidhStep)}

/-- A step in which nothing is handled or emitted. -/
theorem frame (h : KeysAt v now) (htrace : v'.trace = l ++ v.trace)
    (hl : ∀ o ∈ l, o.isHandled = false) (hchars : chars l = [])
    (hnew : ∀ q, .handled q ∈ v.trace ∨ q ∈ now.map Prod.fst → .posted q ∉ l)
    (hcfg : v'.kbd.cfg.onKey = v.kbd.cfg.onKey) (hwas : v'.kbd.wasPressed = v.kbd.wasPressed)
    (hkeys : .prevKeysCleared ∈ l ∧ v'.kbd.prevKeys = .cleared ∨
      .prevKeysCleared ∉ l ∧ v'.kbd.prevKeys = v.kbd.prevKeys) : KeysAt v' now := by
  have hnew' : ∀ q, .handled q ∈ v.trace → .posted q ∉ l := fun q hq => hnew q (.inl hq)
  have hsince : chars (since Obs.isHandled v'.trace) = chars (since Obs.isHandled v.trace) := by
    rw [htrace, since_append hl, chars_append, hchars, List.append_nil]
  refine ⟨h.toReportsDone.frame htrace hl hnew' hcfg hkeys, ?_, ?_⟩
  · rw [hcfg, hsince]
    exact h.idle
  · rw [hcfg, hsince, hwas, htrace]
    intro hkey p steps hnow
    rw [connKeys_append hl hnew' (hnew p (.inr (by rw [hnow]; rfl)))]
    exact h.under hkey p steps hnow

/-- An event is taken from the queue. -/
theorem pop (h : KeysAt v none) (p : Posted) : KeysAt v (some (p, hidhSteps p.event)) := by
  refine ⟨h.toReportsDone, nofun, ?_⟩
  rintro hkey q steps ⟨⟩
  rw [h.idle hkey rfl, owed, emitted_hidhSteps, ite_self, p.output_eq]
  rfl

/-- The step that was made was not the last one, or it was and nothing is kept. -/
theorem setHandling (h : KeysAt v (some (p, steps))) (hend : steps = [] → p.decodes = false) :
    KeysInv (v.setHandling p steps) := by
  cases steps with
  | cons step steps => exact ⟨⟨h.decoder, h.emitted⟩, nofun, h.under⟩
  | nil =>
    refine ⟨h.toReportsDone.finish (p := p) rfl rfl (fun hkey => ?_) (.inl ⟨hend rfl, rfl⟩), ?_,
      nofun⟩
    · have hall := h.under hkey p [] rfl
      simpa [owed, emitted, stepInputs] using hall
    · intro _ _
      exact congrArg chars (since_cons_of_pos rfl)

/-! ### Operations -/

/-- The main task emits NUL only. -/
theorem noted_chars {o : Op} {c : Choice} (hat : o.At v.ctl) : chars (v.noted o c).toList = [] := by
  have hnone : ∀ obs ∈ (v.noted o c).toList, obs.char? = none := by
    intro obs hobs
    have hnoted := Option.mem_toList.mp hobs
    cases o with
    | emitKey ch =>
      obtain ⟨rfl, -⟩ := hat
      simp only [View.noted, Option.ite_none_right_eq_some, Option.some.injEq] at hnoted
      rw [← hnoted.2]
      rfl
    | receiveCmd _ _ =>
      obtain ⟨cmd, -, rfl⟩ := Option.map_eq_some_iff.mp hnoted
      cases cmd <;> rfl
    | _ =>
      simp only [View.noted, Option.ite_none_right_eq_some, Option.ite_none_left_eq_some,
        Option.some.injEq, reduceCtorEq] at hnoted <;>
        first | (subst hnoted; rfl) | (obtain ⟨-, rfl⟩ := hnoted; rfl)
  rw [chars, List.filterMap_eq_nil_iff.mpr hnone]
  rfl

/-- What was handled or is being handled is not posted again. -/
theorem seq_lt (hlog : EventLog v) {q : Posted}
    (hq : .handled q ∈ v.trace ∨ q ∈ v.handling.map Prod.fst) : q.seq < v.nextSeq := by
  rcases hq with hq | hq
  · exact (hlog.inOrder.handled _ ⟨_, hq, rfl⟩).1
  · refine hlog.inOrder.numbered _ (List.mem_map_of_mem (List.mem_append_left _ ?_))
    exact Option.mem_toList.mpr hq

theorem exec {o : Op} {c : Choice} (h : KeysInv v) (hlog : EventLog v) (hat : o.At v.ctl) :
    KeysInv (v.exec o c) := by
  have hhandling : (v.exec o c).handling = v.handling := by
    by_cases hpost : ∃ kind d, o = .postOpen kind d
    · obtain ⟨kind, d, rfl⟩ := hpost
      rfl
    · exact (View.exec_events c v fun kind d ho => hpost ⟨kind, d, ho⟩).1
  rw [KeysInv, hhandling]
  refine KeysAt.frame h (View.exec_trace o c v) ?_ (noted_chars hat) ?_ ?_
    (View.exec_wasPressed o c v) ?_
  · intro obs hobs
    have hnoted := View.noted_origin (Option.mem_toList.mp hobs)
    cases obs with
    | handled q => exact hnoted.elim
    | _ => rfl
  · intro q hq hmem
    obtain ⟨_, _, -, rfl⟩ := View.noted_origin (Option.mem_toList.mp hmem)
    exact Nat.lt_irrefl _ (seq_lt hlog hq)
  · rw [View.exec_cfg]
    split <;> rfl
  · rw [View.exec_prevKeys]
    cases o with
    | clearPrevKeys => exact .inl ⟨List.mem_cons_self, rfl⟩
    | _ =>
      refine .inr ⟨fun hmem => ?_, rfl⟩
      cases View.noted_origin (Option.mem_toList.mp hmem)

/-! ### Events -/

/-- A key that follows the reports of its connection is found where it was held. -/
theorem found_eq {s : Sys} {code : UInt8} (h : ReportsDone s.view) (hg : s.follows p code = true) :
    s.kbd.prevKeys.keys.contains code = (connKeys p s.trace).keys.contains code := by
  simp only [Sys.follows, Bool.or_eq_true, Bool.and_eq_true, Bool.not_eq_true'] at hg
  rcases hg with ⟨hlast, hclear⟩ | ⟨hprev, hheld⟩
  · obtain ⟨q, hq, hconn⟩ := (Option.any_eq_true _ _).mp hlast
    have hsame : connOf q s.trace = connOf p s.trace := beq_iff_eq.mp hconn
    have hkeys : s.kbd.prevKeys = if clearedSince s.trace then .cleared else connKeys q s.trace :=
      h.decoder q hq
    rw [hkeys, hclear, if_neg Bool.false_ne_true, connKeys, hsame, connKeys]
  · rw [hprev, hheld]

/-- **A key is looked up.** -/
theorem compare {s : Sys} {mod code : UInt8}
    (h : KeysAt s.view (some (p, .compare mod code :: steps)))
    (hnext : emitted steps = keyOutput mod code)
    (hg : keyOutput mod code = [] ∨ s.follows p code = true) :
    KeysAt (s.view.stepExec (.compare mod code)) (some (p, steps)) := by
  have hl : ∀ o ∈ [Obs.compared mod code], o.isHandled = false := by simp [Obs.isHandled]
  have hposted : ∀ q, .posted q ∉ [Obs.compared mod code] := by simp
  have htrace : (s.view.stepExec (.compare mod code)).trace =
      [.compared mod code] ++ s.view.trace := rfl
  refine ⟨h.toReportsDone.frame htrace hl (fun q _ => hposted q) rfl (.inr ⟨by simp, rfl⟩), nofun,
    ?_⟩
  rintro hkey q rest ⟨⟩
  have hall := h.under hkey p _ rfl
  have hnow : owed (s.view.stepExec (.compare mod code)).kbd.wasPressed steps =
      if (connKeys p s.view.trace).keys.contains code then [] else keyOutput mod code := by
    change (if s.kbd.prevKeys.keys.contains code then [] else emitted steps) = _
    rw [hnext]
    rcases hg with hnone | hfollows
    · rw [hnone, ite_self, ite_self]
    · rw [found_eq h.toReportsDone hfollows]
      rfl
  rw [htrace, since_append hl, chars_append, connKeys_append hl (fun q _ => hposted q) (hposted p),
    hnow, ← hall]
  simp [owed, emitted, Transducer.run, chars, Obs.char?]

/-- **A character is emitted, or held back.** -/
theorem emit {ch : UInt8} (h : KeysAt v (some (p, .emit ch :: steps))) (hne : ch ≠ 0) :
    KeysAt (v.stepExec (.emit ch)) (some (p, steps)) := by
  obtain ⟨l, htrace, hkeys⟩ : ∃ l, (v.stepExec (.emit ch)).trace = l ++ v.trace ∧
      l = if !v.kbd.wasPressed && v.kbd.cfg.onKey then [.key ch] else [] := by
    refine ⟨_, ?_, rfl⟩
    simp only [View.stepExec]
    split <;> rfl
  have hall : ∀ o ∈ l, o = .key ch := by
    intro o ho
    rw [hkeys] at ho
    split at ho
    · exact List.mem_singleton.mp ho
    · cases ho
  have hl : ∀ o ∈ l, o.isHandled = false := fun o ho => by rw [hall o ho]; rfl
  have hposted : ∀ q, .posted q ∉ l := fun q hq => by cases hall _ hq
  have hclear : .prevKeysCleared ∉ l := fun hq => by cases hall _ hq
  refine ⟨h.toReportsDone.frame htrace hl (fun q _ => hposted q) rfl (.inr ⟨hclear, rfl⟩),
    (fun _ hnone => by cases hnone), ?_⟩
  rintro hkey q rest ⟨⟩
  have hon : v.kbd.cfg.onKey = true := hkey
  have hunder := h.under hon p _ rfl
  rw [htrace, since_append hl, chars_append, connKeys_append hl (fun q _ => hposted q) (hposted p),
    ← hunder, hkeys, hon]
  have hwas : (v.stepExec (.emit ch)).kbd.wasPressed = v.kbd.wasPressed := rfl
  rw [hwas]
  cases v.kbd.wasPressed <;>
    simp [owed, emitted, chars, Obs.char?, hne]

/-- **The keys of a report are kept.** -/
theorem remember {keys : KeySlots} {data : List UInt8} (h : KeysAt v (some (p, [.remember keys])))
    (hreport : p.report? = some data) (hlong : ¬data.length < 3) (hkeys : keys = curKeys data) :
    KeysInv ((v.stepExec (.remember keys)).setHandling p []) := by
  refine ⟨h.toReportsDone.finish (p := p) rfl rfl (fun hkey => ?_)
    (.inr ⟨data, hreport, hlong, hkeys⟩), ?_, nofun⟩
  · have hall := h.under hkey p _ rfl
    simpa [owed, emitted, stepInputs, HidhStep.input?] using hall
  · intro _ _
    exact congrArg chars (since_cons_of_pos rfl)

/-- A step that has nothing to do with keys. -/
theorem other {step : HidhStep} (h : KeysAt v (some (p, step :: steps)))
    (hemit : ∀ ch, step ≠ .emit ch) (hinput : step.input? = none) (hnext : emitted steps = []) :
    KeysAt (v.stepExec step) (some (p, steps)) := by
  obtain ⟨l, htrace, hl, hkeys, hwas, hcfg⟩ := View.stepExec_other v hemit hinput
  have hchars : chars l = [] := by
    rw [chars, List.filterMap_eq_nil_iff.mpr fun o ho => ?_]
    · rfl
    · obtain ⟨d, rfl⟩ := hl o ho
      rfl
  have hnow : KeysAt v (some (p, steps)) := by
    refine ⟨h.toReportsDone, nofun, ?_⟩
    rintro hkey q rest ⟨⟩
    have hall := h.under hkey p _ rfl
    have hfirst : emitted (step :: steps) = [] := by
      cases step with
      | emit ch => exact absurd rfl (hemit ch)
      | _ => rfl
    rw [← hall, owed, owed, hnext, hfirst, stepInputs, stepInputs, List.filterMap_cons, hinput]
  refine hnow.frame htrace (fun o ho => ?_) hchars (fun q _ hq => ?_) (by rw [hcfg]) hwas
    (.inr ⟨fun hq => ?_, hkeys⟩)
  · obtain ⟨d, rfl⟩ := hl o ho
    rfl
  · obtain ⟨d, heq⟩ := hl _ hq
    cases heq
  · obtain ⟨d, heq⟩ := hl _ hq
    cases heq

/-- **A step of the event task, where keys follow the reports of their connection.** -/
theorem dispatch {s : Sys} (h : KeysInv s.view) (hlog : EventLog s.view) (hbusy : Busy s.view)
    (heff : View.Effect .dispatch s.view v')
    (hg : ∀ p mod code steps, s.hidh.handling = some (p, .compare mod code :: steps) →
      keyOutput mod code = [] ∨ s.follows p code = true) : KeysInv v' := by
  cases heff with
  | quiet _ hinner => cases hinner
  | settled _ p hsome => exact absurd hsome (hbusy p)
  | popped _ p ps hnone hitems =>
    rw [KeysInv, hnone] at h
    have hpop := h.pop p
    exact KeysAt.setHandling ⟨⟨hpop.decoder, hpop.emitted⟩, nofun, hpop.under⟩ decodes_of_nil
  | stepped _ p step steps hsome =>
    rw [KeysInv, hsome] at h
    have hsuffix := hlog.steps p _ hsome
    have hlast : steps = [] → (∀ keys, step ≠ .remember keys) → p.decodes = false := by
      rintro rfl hstep
      exact decodes_of_last hsuffix hstep
    cases step with
    | compare mod code =>
      exact (h.compare (emitted_of_compare hsuffix) (hg p mod code steps hsome)).setHandling
        fun hnil => hlast hnil nofun
    | emit ch =>
      exact (h.emit (ne_nul_of_emit (hsuffix.subset List.mem_cons_self))).setHandling
        fun hnil => hlast hnil nofun
    | remember keys =>
      obtain ⟨rfl, data, hreport, hlong, hkeys⟩ := remember_of_suffix hsuffix
      exact h.remember hreport hlong hkeys
    | _ =>
      exact (h.other nofun rfl (emitted_of_other hsuffix nofun rfl)).setHandling
        fun hnil => hlast hnil nofun

/-- **An event, where keys follow the reports of their connection.** -/
theorem effect {e : Event} {s : Sys} (h : KeysInv s.view) (hlog : EventLog s.view)
    (hbusy : Busy s.view) (heff : View.Effect e s.view v') (hg : followed.env e s = true) :
    KeysInv v' := by
  by_cases he : e = .dispatch
  · subst he
    refine KeysAt.dispatch h hlog hbusy heff fun p mod code steps hsome => ?_
    simpa only [followed, hsome, Bool.or_eq_true, List.isEmpty_iff] using hg
  obtain ⟨l, htrace, hby⟩ := heff.records
  obtain ⟨_, _, hlogs, -⟩ := heff.logs he
  have hquiet : ∀ obs ∈ l, obs.isHandled = false ∧ obs.char? = none := by
    intro obs hobs
    have hrec := hby obs hobs
    cases obs with
    | handled _ | key _ => exact absurd hrec he
    | _ => exact ⟨rfl, rfl⟩
  have hchars : chars l = [] := by
    rw [chars, List.filterMap_eq_nil_iff.mpr fun obs hobs => (hquiet obs hobs).2]
    rfl
  rw [KeysInv, hlogs.handling]
  refine KeysAt.frame h htrace (fun obs hobs => (hquiet obs hobs).1) hchars (fun q hq hmem => ?_)
    (by rw [heff.cfg]) (heff.wasPressed he)
    (.inr ⟨fun hmem => (hby _ hmem).elim, heff.prevKeys he⟩)
  have hseq : q.seq = s.view.nextSeq := (hby _ hmem).1
  have hlt := seq_lt hlog hq
  omega

end KeysAt

end BleKbdHost.Host
