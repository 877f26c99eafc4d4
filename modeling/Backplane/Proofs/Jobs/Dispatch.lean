import Backplane.Proofs.Fiber.Run
import Backplane.Host.Runner

/-!
# Dispatching work items

A work item job reads the envelope of an item (its kind, version, id, whether it asks for
progress reports, and its payload bytes), looks up the handler registered for the kind, checks
the version, reads the payload as the handler's payload type, and runs the handler; after a
success it reports 100. The lock the job takes for an item comes from a second path: the same
lookup and the same reading of the payload, then the handler's lock key, with no version
check.

`workItem_dispatch` says that the two paths agree on every envelope and every registry: an
unknown kind fails at once and locks nothing, an item newer than its handler fails at once, a
payload the handler cannot read fails at once with the reading error as cause and locks
nothing, and otherwise the job locks the handler's key of the payload and runs the handler on
that same payload, ending as the handler ends. The report of 100 after the handler goes out
exactly after a success with reports on (`reportEnd_run`), and every report caps its progress
at 100 (`statusJson_progress`).
-/

namespace Backplane.Jobs

open Backplane.Fiber Backplane.Fiber.Prog Host Json

/-! ## Envelopes -/

namespace Envelope

/-- The kind an envelope names. -/
def kind (data : Json) : String := scriptText data "kind"

/-- The payload version an envelope was written with. -/
def version (data : Json) : Nat := scriptNat data "version"

/-- The id of the work item. -/
def id (data : Json) : String := scriptText data "id"

/-- Whether the item asks for progress reports. -/
def sendsProgress (data : Json) : Bool :=
  match data.field? "send_progress" with
  | some (.bool b) => b
  | _ => false

/-- The payload of an envelope, read as the payload of a handler. -/
def payload (h : Handler) (data : Json) : Except ReadError Json :=
  h.payloadShape.decodeBytes ⟨(envelopeBytes data).toArray⟩

end Envelope

/-- What a work item reports once its handler has ended: 100, with the message of the result,
after a success. -/
def reportEnd (report : Bool) (topic id kind : String) : Ending → Act Unit
  | .result r =>
    if r.isSuccess then reportProgress report topic id kind 100 r.message else pure ()
  | .panic _ => pure ()

namespace Registry

theorem find?_eq_none_iff {reg : Registry} {k : String} :
    reg.find? k = none ↔ reg.isRegistered k = false := by
  simp [find?, isRegistered, List.find?_eq_none]

end Registry

variable {reg : Registry} {bus : Bool} {topic : String} {ctx : Context} {h : Handler}
  {g g' : Host}

/-! ## What a work item job does -/

theorem runWorkItem_unknown (hn : reg.find? (Envelope.kind ctx.value) = none) :
    runWorkItem reg bus topic ctx =
      pure (.result (.failed ("unknown work item kind '" ++ Envelope.kind ctx.value ++ "'")
        none)) := by
  unfold runWorkItem
  dsimp only
  rw [show reg.find? (scriptText ctx.value "kind") = none from hn]
  rfl

theorem runWorkItem_newer (hh : reg.find? (Envelope.kind ctx.value) = some h)
    (hv : h.version < Envelope.version ctx.value) :
    runWorkItem reg bus topic ctx =
      pure (.result (.failed ("work item kind '" ++ Envelope.kind ctx.value ++ "' version " ++
        toString (Envelope.version ctx.value) ++ " is newer than supported version " ++
        toString h.version) none)) := by
  unfold runWorkItem
  dsimp only
  rw [show reg.find? (scriptText ctx.value "kind") = some h from hh]
  exact if_pos hv

theorem runWorkItem_undecodable {err : ReadError}
    (hh : reg.find? (Envelope.kind ctx.value) = some h)
    (hv : Envelope.version ctx.value ≤ h.version) (hp : Envelope.payload h ctx.value = .error err) :
    runWorkItem reg bus topic ctx =
      pure (.result (.failed ("payload for work item kind '" ++ Envelope.kind ctx.value ++
        "' failed to decode")
        (some ⟨(CoreError.serialization Wire.formatName err.message).message, []⟩))) := by
  unfold runWorkItem
  dsimp only
  rw [show reg.find? (scriptText ctx.value "kind") = some h from hh]
  dsimp only
  rw [if_neg (show ¬ scriptNat ctx.value "version" > h.version from Nat.not_lt.2 hv)]
  rw [show h.payloadShape.decodeBytes ⟨(envelopeBytes ctx.value).toArray⟩ = .error err from hp]
  rfl

theorem runWorkItem_handled {p : Json} (hh : reg.find? (Envelope.kind ctx.value) = some h)
    (hv : Envelope.version ctx.value ≤ h.version) (hp : Envelope.payload h ctx.value = .ok p) :
    runWorkItem reg bus topic ctx = (do
      let e ← h.handle ctx (bus && Envelope.sendsProgress ctx.value) topic
        (Envelope.id ctx.value) p
      reportEnd (bus && Envelope.sendsProgress ctx.value) topic (Envelope.id ctx.value)
        (Envelope.kind ctx.value) e
      return e) := by
  unfold runWorkItem
  dsimp only
  rw [show reg.find? (scriptText ctx.value "kind") = some h from hh]
  dsimp only
  rw [if_neg (show ¬ scriptNat ctx.value "version" > h.version from Nat.not_lt.2 hv)]
  rw [show h.payloadShape.decodeBytes ⟨(envelopeBytes ctx.value).toArray⟩ = .ok p from hp]
  dsimp only
  congr 1
  funext e
  cases e with
  | result r => cases hs : r.isSuccess <;> simp [reportEnd, hs] <;> rfl
  | panic m => rfl

/-! ## Lock keys -/

theorem lockKey_unknown (hn : reg.find? (Envelope.kind ctx.value) = none) :
    (Job.workItems reg bus topic).lockKey ctx.value = none := by
  simp only [Job.lockKey]
  rw [show reg.find? (scriptText ctx.value "kind") = none from hn]
  rfl

theorem lockKey_undecodable {err : ReadError}
    (hh : reg.find? (Envelope.kind ctx.value) = some h)
    (hp : Envelope.payload h ctx.value = .error err) :
    (Job.workItems reg bus topic).lockKey ctx.value = none := by
  simp only [Job.lockKey]
  rw [show reg.find? (scriptText ctx.value "kind") = some h from hh, Option.bind_some]
  rw [show h.payloadShape.decodeBytes ⟨(envelopeBytes ctx.value).toArray⟩ = .error err from hp]

theorem lockKey_decoded {p : Json} (hh : reg.find? (Envelope.kind ctx.value) = some h)
    (hp : Envelope.payload h ctx.value = .ok p) :
    (Job.workItems reg bus topic).lockKey ctx.value = h.lockKey p := by
  simp only [Job.lockKey]
  rw [show reg.find? (scriptText ctx.value "kind") = some h from hh, Option.bind_some]
  rw [show h.payloadShape.decodeBytes ⟨(envelopeBytes ctx.value).toArray⟩ = .ok p from hp]

/-! ## Reports -/

theorem reportProgress_run {report : Bool} {id kind : String} {n : Nat} {m : Option String} :
    (reportProgress report topic id kind n m).Run g () g' ↔
      (report = true ∧ (publishJson topic (statusJson id kind n m)).Run g () g') ∨
        (report = false ∧ g' = g) := by
  cases report
  · simp [reportProgress, eq_comm]
  · simp [reportProgress]

/-- After its handler a work item reports 100, with the success's message, exactly when the
handler succeeded and reports are on. -/
theorem reportEnd_run {report : Bool} {id kind : String} {e : Ending} :
    (reportEnd report topic id kind e).Run g () g' ↔
      (∃ m, e = .result (.success m) ∧ report = true ∧
        (publishJson topic (statusJson id kind 100 m)).Run g () g') ∨
      ((report = false ∨ ∀ m, e ≠ .result (.success m)) ∧ g' = g) := by
  cases e with
  | result r =>
    cases r with
    | success m =>
      simp only [reportEnd, JobResult.isSuccess, if_true, reportProgress_run, JobResult.message]
      cases report <;> simp
    | failed m c => simp [reportEnd, JobResult.isSuccess, eq_comm]
    | cancelled m => simp [reportEnd, JobResult.isSuccess, eq_comm]
  | panic m => simp [reportEnd, eq_comm]

theorem statusJson_progress {id kind : String} {n : Nat} {m : Option String} :
    (statusJson id kind n m).field? "progress" = some (Json.nat (Nat.min n 100)) := by
  simp [statusJson, Json.field?]

/-- A work item whose handler takes it: the run of the handler on the payload, then the
report of its end. -/
theorem runWorkItem_run_handled {p : Json} (hh : reg.find? (Envelope.kind ctx.value) = some h)
    (hv : Envelope.version ctx.value ≤ h.version) (hp : Envelope.payload h ctx.value = .ok p)
    {e : Ending} :
    (runWorkItem reg bus topic ctx).Run g e g' ↔
      ∃ g₁, (h.handle ctx (bus && Envelope.sendsProgress ctx.value) topic
          (Envelope.id ctx.value) p).Run g e g₁ ∧
        (reportEnd (bus && Envelope.sendsProgress ctx.value) topic (Envelope.id ctx.value)
          (Envelope.kind ctx.value) e).Run g₁ () g' := by
  rw [runWorkItem_handled hh hv hp]
  simp only [run_bind, run_pure]
  constructor
  · rintro ⟨e', g₁, hrun, u, g₂, hr, rfl, rfl⟩
    exact ⟨g₁, hrun, hr⟩
  · rintro ⟨g₁, hrun, hr⟩
    exact ⟨e, g₁, hrun, (), g', hr, rfl, rfl⟩

/-- Dispatch of work items. For every registry, every envelope and every setting of the status
bus: an envelope of a kind with no handler fails at once as unknown and locks nothing; one
newer than its handler fails at once; one whose payload the handler cannot read locks nothing
and fails at once with the reading error as cause; otherwise the job locks the handler's key
of the payload and runs the handler on that same payload, ending as it ends. After the handler
a report of 100 goes out exactly on a success with reports on (the item asked for them and a
bus is configured), and every report carries its progress capped at 100. -/
theorem workItem_dispatch (reg : Registry) (bus : Bool) (topic : String) (ctx : Context) :
    (reg.isRegistered (Envelope.kind ctx.value) = false →
      runWorkItem reg bus topic ctx = pure (.result (.failed
        ("unknown work item kind '" ++ Envelope.kind ctx.value ++ "'") none)) ∧
      (Job.workItems reg bus topic).lockKey ctx.value = none) ∧
    (∀ h, reg.find? (Envelope.kind ctx.value) = some h →
      (h.version < Envelope.version ctx.value →
        runWorkItem reg bus topic ctx = pure (.result (.failed ("work item kind '" ++
          Envelope.kind ctx.value ++ "' version " ++ toString (Envelope.version ctx.value) ++
          " is newer than supported version " ++ toString h.version) none))) ∧
      (∀ err, Envelope.payload h ctx.value = .error err →
        (Job.workItems reg bus topic).lockKey ctx.value = none ∧
        (Envelope.version ctx.value ≤ h.version →
          runWorkItem reg bus topic ctx = pure (.result (.failed ("payload for work item kind '" ++
            Envelope.kind ctx.value ++ "' failed to decode")
            (some ⟨(CoreError.serialization Wire.formatName err.message).message, []⟩))))) ∧
      (∀ p, Envelope.payload h ctx.value = .ok p →
        (Job.workItems reg bus topic).lockKey ctx.value = h.lockKey p ∧
        (Envelope.version ctx.value ≤ h.version → ∀ g e g',
          (runWorkItem reg bus topic ctx).Run g e g' ↔
            ∃ g₁, (h.handle ctx (bus && Envelope.sendsProgress ctx.value) topic
                (Envelope.id ctx.value) p).Run g e g₁ ∧
              (reportEnd (bus && Envelope.sendsProgress ctx.value) topic (Envelope.id ctx.value)
                (Envelope.kind ctx.value) e).Run g₁ () g'))) ∧
    (∀ report id kind e g g', (reportEnd report topic id kind e).Run g () g' ↔
      (∃ m, e = .result (.success m) ∧ report = true ∧
        (publishJson topic (statusJson id kind 100 m)).Run g () g') ∨
      ((report = false ∨ ∀ m, e ≠ .result (.success m)) ∧ g' = g)) ∧
    (∀ id kind n m,
      (statusJson id kind n m).field? "progress" = some (Json.nat (Nat.min n 100))) := by
  refine ⟨fun hn => ?_, fun h hh => ⟨fun hv => runWorkItem_newer hh hv, fun err hp => ?_,
    fun p hp => ?_⟩, fun _ _ _ _ _ _ => reportEnd_run, fun _ _ _ _ => statusJson_progress⟩
  · have hn' := Registry.find?_eq_none_iff.2 hn
    exact ⟨runWorkItem_unknown hn', lockKey_unknown hn'⟩
  · exact ⟨lockKey_undecodable hh hp, fun hv => runWorkItem_undecodable hh hv hp⟩
  · exact ⟨lockKey_decoded hh hp, fun hv _ _ _ => runWorkItem_run_handled hh hv hp⟩

end Backplane.Jobs
