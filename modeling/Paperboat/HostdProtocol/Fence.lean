import Paperboat.HostdProtocol.Controller
import Paperboat.Lib.Transition

/-! The fence over whole histories: messages of any workers, delayed and repeated ones
included, and restarts of the daemon that keep only the fence file. A recorder notes the
leases issued and the activations acknowledged. -/

namespace Paperboat.HostdProtocol

open Transition

/-- An acknowledged activation. -/
structure Activation where
  workerID : String
  epoch : UInt64
  lease : String
  deriving DecidableEq, Repr

/-- The daemon, its fence file, and the recorder. -/
structure System where
  controller : Controller
  file : Option FenceState
  /-- The leases of all welcomes. -/
  issued : List String := []
  /-- The activations acknowledged in the whole history, the latest first. -/
  acknowledged : List Activation := []
  /-- The last one since the daemon was started. -/
  last : Option Activation := none
  /-- The leases issued before the latest acknowledged activation. -/
  earlier : List String := []

inductive Action where
  | handle (m : Message)
  | restart (apiMin apiMax : UInt16)

namespace System

/-- The epoch in the fence file. -/
def persistedEpoch (s : System) : UInt64 :=
  (s.file.getD {}).epoch

/-- The answer to a message in a state. -/
def reply (format : Format) (s : System) (m : Message) : Except Error Reply :=
  (s.controller.handle format s.file m).1

/-- The recorder takes note of an answered message. -/
def note (s : System) : Message → Except Error Reply → System
  | .hello .., .ok (.welcome w) => { s with issued := w.lease :: s.issued }
  | .activate m _, .ok _ =>
    let a : Activation := ⟨m.workerID, m.epoch, m.lease⟩
    { s with acknowledged := a :: s.acknowledged, last := some a, earlier := s.issued }
  | _, _ => s

/-- Start the daemon from the fence file. -/
def boot (format : Format) (apiMin apiMax : UInt16) (s : System) : Option System :=
  match loadFenceState format s.file with
  | .error _ => none
  | .ok state =>
    match newController apiMin apiMax state.epoch with
    | .error _ => none
    | .ok controller => some { s with controller, last := none }

def step (format : Format) (s : System) : Action → Option System
  | .restart apiMin apiMax => s.boot format apiMin apiMax
  | .handle m =>
    let (r, controller, file) := s.controller.handle format s.file m
    some ({ s with controller, file }.note m r)

/-- No lease is issued twice. -/
def distinctLeases (format : Format) (s : System) : Action → Bool
  | .handle m =>
    match s.reply format m with
    | .ok (.welcome w) => w.lease ∉ s.issued
    | _ => true
  | .restart .. => true

/-- A daemon started over a fence file, before its first message. -/
def Fresh (format : Format) (s : System) : Prop :=
  ∃ file apiMin apiMax controller, boot format apiMin apiMax { controller, file } = some s

end System

variable {format : Format} {c : Controller} {s t : System}

/-! ### The operations of the controller -/

section Operations

variable (format)

variable {m : LeaseMessage}

theorem Worker.isFrom_iff {value : Worker} : value.isFrom m = true ↔
    value.epoch ≠ 0 ∧ value.workerID = m.workerID ∧ value.apiVersion = m.apiVersion ∧
      value.epoch = m.epoch ∧ value.lease = m.lease := by
  simp [Worker.isFrom, and_assoc]

/-- A negotiation leaves the active worker alone, and a lease it grants comes with an epoch
above every earlier one. -/
theorem Controller.negotiate_cases (hello : Hello) (draws : List (Option String)) :
    (c.negotiate format hello draws).2.active = c.active ∧
    ((∃ e, (c.negotiate format hello draws).1 = .error e ∧
        (c.negotiate format hello draws).2.candidate = c.candidate ∧
        c.lastEpoch ≤ (c.negotiate format hello draws).2.lastEpoch) ∨
      ∃ w, (c.negotiate format hello draws).1 = .ok w ∧
        (c.negotiate format hello draws).2.candidate.lease = w.lease ∧
        (c.negotiate format hello draws).2.candidate.epoch =
          (c.negotiate format hello draws).2.lastEpoch ∧
        c.lastEpoch < (c.negotiate format hello draws).2.lastEpoch) := by
  unfold Controller.negotiate
  split
  · exact ⟨rfl, .inl ⟨_, rfl, rfl, UInt64.le_refl _⟩⟩
  split
  · exact ⟨rfl, .inl ⟨_, rfl, rfl, UInt64.le_refl _⟩⟩
  rename_i apiVersion _
  -- Raising the last epoch to the active one only makes it larger.
  obtain ⟨d, hd, hact, hcand, hle⟩ : ∃ d,
      (if c.lastEpoch < c.active.epoch then { c with lastEpoch := c.active.epoch } else c) = d ∧
        d.active = c.active ∧ d.candidate = c.candidate ∧ c.lastEpoch ≤ d.lastEpoch := by
    split
    · exact ⟨_, rfl, rfl, rfl, UInt64.le_of_lt ‹_›⟩
    · exact ⟨_, rfl, rfl, rfl, UInt64.le_refl _⟩
  rw [hd]
  dsimp only
  split
  · exact ⟨hact, .inl ⟨_, rfl, hcand, hle⟩⟩
  rename_i hroom
  split
  · exact ⟨hact, .inl ⟨_, rfl, hcand, hle⟩⟩
  · refine ⟨hact, .inr ⟨_, rfl, rfl, rfl, ?_⟩⟩
    have hlast := d.lastEpoch.toNat_lt
    rw [UInt64.le_iff_toNat_le] at hle
    rw [UInt64.lt_iff_toNat_lt, UInt64.toNat_add, Nat.mod_eq_of_lt (by simp; omega)]
    simp only [UInt64.reduceToNat]
    omega

theorem Controller.markReady_cases (m : LeaseMessage) :
    (∃ e, c.markReady format m = (.error e, c)) ∨
      (c.candidate.isFrom m ∧
        c.markReady format m = (.ok (), { c with candidate := { c.candidate with ready := true } })) := by
  unfold Controller.markReady
  split_ifs with hvalid hfrom
  · exact .inl ⟨_, rfl⟩
  · exact .inl ⟨_, rfl⟩
  · exact .inr ⟨by simpa using hfrom, rfl⟩

/-- An activation is refused, is recorded and still reported as failed, or is recorded and
acknowledged. -/
theorem Controller.activate_cases (m : LeaseMessage) (write : Write) (file : Option FenceState) :
    (∃ e, c.activate format m write file = (.error e, c, file)) ∨
      (c.candidate.isFrom m ∧ ∃ next : FenceState, next.epoch = m.epoch ∧
        ((∃ e, c.activate format m write file = (.error e, c, some next)) ∨
          ∃ status, c.activate format m write file =
            (.ok status, { c with active := c.candidate, candidate := {} }, some next))) := by
  unfold Controller.activate
  split_ifs with hvalid hfrom hready
  · exact .inl ⟨_, rfl⟩
  · exact .inl ⟨_, rfl⟩
  · exact .inl ⟨_, rfl⟩
  have hfrom : c.candidate.isFrom m = true := by simpa using hfrom
  have hepoch := (Worker.isFrom_iff.mp hfrom).2.2.2.1
  unfold persist
  dsimp only
  split_ifs
  · exact .inl ⟨_, rfl⟩
  cases write with
  | done => exact .inr ⟨hfrom, _, hepoch, .inr ⟨_, rfl⟩⟩
  | failed => exact .inl ⟨_, rfl⟩
  | uncertain => exact .inr ⟨hfrom, _, hepoch, .inl ⟨_, rfl⟩⟩

theorem Controller.acceptHeartbeat_cases (m : LeaseMessage) (now : Int) :
    (∃ e, c.acceptHeartbeat format m now = (.error e, c)) ∨
      (c.active.isFrom m ∧ c.acceptHeartbeat format m now =
        (.ok (), { c with active := { c.active with lastHeartbeat := some now } })) := by
  unfold Controller.acceptHeartbeat
  split_ifs with hvalid hfrom
  · exact .inl ⟨_, rfl⟩
  · exact .inl ⟨_, rfl⟩
  · exact .inr ⟨by simpa using hfrom, rfl⟩

end Operations

/-! ### The invariant -/

/-- Acknowledged epochs lie below the recorded one, and the recorded one below every epoch
that can still be granted or activated. -/
structure Inv (s : System) : Prop where
  recorded : s.persistedEpoch ≤ s.controller.lastEpoch
  acknowledged : ∀ a ∈ s.acknowledged, a.epoch ≤ s.persistedEpoch
  increasing : s.acknowledged.Pairwise fun a b => b.epoch < a.epoch
  candidate : s.controller.candidate.epoch ≠ 0 →
    s.controller.candidate.epoch ≤ s.controller.lastEpoch ∧
      s.persistedEpoch ≤ s.controller.candidate.epoch ∧
      (∀ a ∈ s.acknowledged, a.epoch < s.controller.candidate.epoch) ∧
      s.controller.candidate.lease ∉ s.earlier
  active : s.controller.active.epoch ≠ 0 → s.last = some
    ⟨s.controller.active.workerID, s.controller.active.epoch, s.controller.active.lease⟩
  earlier : ∀ l ∈ s.earlier, l ∈ s.issued

theorem step_handle (h : s.step format (.handle m) = some t) :
    t = ({ s with
      controller := (s.controller.handle format s.file m).2.1
      file := (s.controller.handle format s.file m).2.2 }).note m (s.reply format m) :=
  (Option.some.inj h).symm

theorem Inv.negotiate (h : Inv s) (hello : Hello) (draws : List (Option String))
    (hok : s.distinctLeases format (.handle (.hello hello draws)))
    (hst : s.step format (.handle (.hello hello draws)) = some t) : Inv t := by
  have ht : t = ({ s with controller := (s.controller.negotiate format hello draws).2 }).note
      (.hello hello draws) ((s.controller.negotiate format hello draws).1.map .welcome) :=
    (Option.some.inj hst).symm
  subst ht
  obtain ⟨hact, ⟨e, hr, hcand, hle⟩ | ⟨w, hr, hlease, hepoch, hlt⟩⟩ :=
    s.controller.negotiate_cases format hello draws
  · simp only [hr, Except.map, System.note]
    exact {
      recorded := UInt64.le_trans h.recorded hle
      acknowledged := h.acknowledged
      increasing := h.increasing
      candidate := fun hne => by
        rw [hcand] at hne ⊢
        obtain ⟨hlast, hrest⟩ := h.candidate hne
        exact ⟨UInt64.le_trans hlast hle, hrest⟩
      active := by rw [hact]; exact h.active
      earlier := h.earlier }
  · have hnew : w.lease ∉ s.issued := by
      simpa [System.distinctLeases, System.reply, Controller.handle, hr, Except.map] using hok
    simp only [hr, Except.map, System.note]
    have habove := UInt64.lt_of_le_of_lt h.recorded hlt
    exact {
      recorded := UInt64.le_of_lt habove
      acknowledged := h.acknowledged
      increasing := h.increasing
      candidate := fun _ => by
        rw [hlease, hepoch]
        exact ⟨UInt64.le_refl _, UInt64.le_of_lt habove,
          fun a ha => UInt64.lt_of_le_of_lt (h.acknowledged a ha) habove,
          fun hl => hnew (h.earlier _ hl)⟩
      active := by rw [hact]; exact h.active
      earlier := fun l hl => List.mem_cons_of_mem _ (h.earlier l hl) }

/-- A write of the candidate's epoch, whether the activation is acknowledged or not. -/
theorem Inv.record (h : Inv s) {next : FenceState}
    (hfrom : s.controller.candidate.isFrom m) (hnext : next.epoch = m.epoch) :
    Inv { s with file := some next } := by
  obtain ⟨hne, -, -, hepoch, -⟩ := Worker.isFrom_iff.mp hfrom
  obtain ⟨hlast, hold, hacked, hlease⟩ := h.candidate hne
  have hp : ({ s with file := some next } : System).persistedEpoch =
      s.controller.candidate.epoch := hnext.trans hepoch.symm
  exact {
    recorded := by rw [hp]; exact hlast
    acknowledged := fun a ha => by rw [hp]; exact UInt64.le_of_lt (hacked a ha)
    increasing := h.increasing
    candidate := fun _ => ⟨hlast, by rw [hp]; exact UInt64.le_refl _, hacked, hlease⟩
    active := h.active
    earlier := h.earlier }

theorem Inv.activate (h : Inv s) (m : LeaseMessage) (write : Write)
    (hst : s.step format (.handle (.activate m write)) = some t) : Inv t := by
  obtain rfl := step_handle hst
  obtain ⟨e, hr⟩ | ⟨hfrom, next, hnext, ⟨e, hr⟩ | ⟨status, hr⟩⟩ :=
    s.controller.activate_cases format m write s.file
  · simp only [System.reply, Controller.handle, hr, Except.map, System.note]
    exact h
  · simp only [System.reply, Controller.handle, hr, Except.map, System.note]
    exact h.record hfrom hnext
  · simp only [System.reply, Controller.handle, hr, Except.map, System.note]
    have hnow := h.record hfrom hnext
    obtain ⟨hne, hworker, -, hepoch, hlease⟩ := Worker.isFrom_iff.mp hfrom
    obtain ⟨hlast, hold, hacked, -⟩ := h.candidate hne
    exact {
      recorded := hnow.recorded
      acknowledged := fun a ha => by
        cases ha with
        | head => exact UInt64.le_of_eq hnext.symm
        | tail _ ha => exact hnow.acknowledged a ha
      increasing := List.pairwise_cons.mpr ⟨fun a ha => hepoch ▸ hacked a ha, h.increasing⟩
      candidate := fun hne => absurd rfl hne
      active := fun _ => by simp [hworker, hepoch, hlease]
      earlier := fun _ hl => hl }

theorem Inv.boot (h : s.boot format apiMin apiMax = some t)
    (hacked : ∀ a ∈ s.acknowledged, a.epoch ≤ s.persistedEpoch)
    (hinc : s.acknowledged.Pairwise fun a b => b.epoch < a.epoch)
    (hearlier : ∀ l ∈ s.earlier, l ∈ s.issued) : Inv t := by
  unfold System.boot at h
  split at h
  · contradiction
  rename_i state hload
  have hstate : state.epoch = s.persistedEpoch := by
    unfold loadFenceState at hload
    unfold System.persistedEpoch
    split at hload
    · cases hload; rw [‹s.file = none›]; rfl
    · rename_i file hfile
      rw [hfile, Option.getD_some]
      split_ifs at hload <;> cases hload <;> rfl
  unfold newController at h
  split_ifs at h
  · cases h
    exact ⟨UInt64.le_of_eq hstate.symm, hacked, hinc, fun hne => absurd rfl hne,
      fun hne => absurd rfl hne, hearlier⟩

theorem Inv.step (h : Inv s) (hok : s.distinctLeases format a) (hst : s.step format a = some t) :
    Inv t := by
  match a, hok, hst with
  | .restart apiMin apiMax, _, hst => exact .boot hst h.acknowledged h.increasing h.earlier
  | .handle (.hello hello draws), hok, hst => exact h.negotiate hello draws hok hst
  | .handle (.activate m write), _, hst => exact h.activate m write hst
  | .handle (.status _), _, hst => cases hst; exact h
  | .handle (.ready m), _, hst =>
    obtain rfl := step_handle hst
    obtain ⟨e, hr⟩ | ⟨-, hr⟩ := s.controller.markReady_cases format m
    · simp only [Controller.handle, hr, Except.map, System.note]
      exact h
    · simp only [Controller.handle, hr, Except.map, System.note]
      exact { h with }
  | .handle (.heartbeat m now), _, hst =>
    obtain rfl := step_handle hst
    obtain ⟨e, hr⟩ | ⟨-, hr⟩ := s.controller.acceptHeartbeat_cases format m now
    · simp only [Controller.handle, hr, Except.map, System.note]
      exact h
    · simp only [Controller.handle, hr, Except.map, System.note]
      exact { h with }

theorem Inv.reached (h : ∃ x, x.Fresh format ∧
    Reach (System.step format) (fun y a => y.distinctLeases format a) x s) : Inv s := by
  obtain ⟨x, ⟨file, apiMin, apiMax, controller, hboot⟩, hreach⟩ := h
  refine hreach.invariant (.boot hboot (fun _ ha => absurd ha ?_) .nil fun _ hl => absurd hl ?_)
    Inv.step
  · exact List.not_mem_nil
  · exact List.not_mem_nil

/-! ### The fence -/

/-- The lease a message of a worker is sent under. -/
def Message.body : Message → Option LeaseMessage
  | .ready m | .activate m _ | .heartbeat m _ => some m
  | _ => none

/-- What the fence promises in a state, about the history so far and about every message
that may come next. -/
structure Fenced (format : Format) (s : System) : Prop where
  increasing : s.acknowledged.Pairwise fun a b => b.epoch < a.epoch
  aboveRecorded : ∀ m write r, s.reply format (.activate m write) = .ok r →
    s.persistedEpoch ≤ m.epoch ∧ ∀ a ∈ s.acknowledged, a.epoch < m.epoch
  heartbeat : ∀ m now r, s.reply format (.heartbeat m now) = .ok r →
    s.last = some ⟨m.workerID, m.epoch, m.lease⟩
  stale : ∀ m x r, s.reply format m = .ok r → m.body = some x → x.lease ∈ s.earlier →
    s.last = some ⟨x.workerID, x.epoch, x.lease⟩ ∧ ∃ now, m = .heartbeat x now
  negotiation : ∀ hello draws,
    (s.controller.handle format s.file (.hello hello draws)).2.1.active = s.controller.active

theorem candidate_of_ready (h : s.reply format (.ready m) = .ok r) : s.controller.candidate.isFrom m := by
  obtain ⟨e, hr⟩ | ⟨hfrom, -⟩ := s.controller.markReady_cases format m
  · simp [System.reply, Controller.handle, hr, Except.map] at h
  · exact hfrom

theorem candidate_of_activate (h : s.reply format (.activate m write) = .ok r) :
    s.controller.candidate.isFrom m := by
  obtain ⟨e, hr⟩ | ⟨hfrom, -⟩ := s.controller.activate_cases format m write s.file
  · simp [System.reply, Controller.handle, hr, Except.map] at h
  · exact hfrom

theorem active_of_heartbeat (h : s.reply format (.heartbeat m now) = .ok r) :
    s.controller.active.isFrom m := by
  obtain ⟨e, hr⟩ | ⟨hfrom, -⟩ := s.controller.acceptHeartbeat_cases format m now
  · simp [System.reply, Controller.handle, hr, Except.map] at h
  · exact hfrom

theorem Inv.last_of_heartbeat (h : Inv s) (hr : s.reply format (.heartbeat m now) = .ok r) :
    s.last = some { m with } := by
  obtain ⟨hne, hworker, -, hepoch, hlease⟩ := Worker.isFrom_iff.mp (active_of_heartbeat hr)
  rw [h.active hne, hworker, hepoch, hlease]

theorem Inv.not_earlier (h : Inv s) (hfrom : s.controller.candidate.isFrom m) : m.lease ∉ s.earlier := by
  obtain ⟨hne, -, -, -, hlease⟩ := Worker.isFrom_iff.mp hfrom
  exact hlease ▸ (h.candidate hne).2.2.2

/-- In every history of messages and restarts the fence holds: epochs of acknowledged
activations increase, only the worker activated last is heard, and no lease issued before
its activation is honoured again. -/
theorem worker_fence (h : ∃ x, x.Fresh format ∧
    Reach (System.step format) (fun y a => y.distinctLeases format a) x s) : Fenced format s := by
  have hinv := Inv.reached h
  exact {
    increasing := hinv.increasing
    aboveRecorded := fun m write r hr => by
      obtain ⟨hne, -, -, hepoch, -⟩ := Worker.isFrom_iff.mp (candidate_of_activate hr)
      obtain ⟨-, hrecorded, hacked, -⟩ := hinv.candidate hne
      exact hepoch ▸ ⟨hrecorded, hacked⟩
    heartbeat := fun m now r hr => hinv.last_of_heartbeat hr
    stale := fun m x r hr hbody hearlier => by
      cases m with
      | hello | status => contradiction
      | ready m => cases hbody; exact absurd hearlier (hinv.not_earlier (candidate_of_ready hr))
      | activate m write =>
        cases hbody; exact absurd hearlier (hinv.not_earlier (candidate_of_activate hr))
      | heartbeat m now => cases hbody; exact ⟨hinv.last_of_heartbeat hr, now, rfl⟩
    negotiation := fun hello draws =>
      (s.controller.negotiate_cases format hello draws).1 }

namespace Demo

def rules : Format := ⟨fun id => id != "", fun _ => true, fun _ => true⟩

def started : System := { controller := { apiMin := 1, apiMax := 2, lastEpoch := 0 }, file := none }

def first : LeaseMessage := ⟨"a", 2, 1, "one"⟩

def second : LeaseMessage := ⟨"b", 2, 2, "two"⟩

/-- Worker `a` is activated, worker `b` takes over, and a heartbeat of `a` comes late. -/
def takeover : List Action :=
  [.handle (.hello ⟨"a", "1", 1, 2⟩ [some "one"]), .handle (.ready first),
    .handle (.activate first .done), .handle (.hello ⟨"b", "2", 1, 3⟩ [some "two"]),
    .handle (.ready second), .handle (.activate second .uncertain),
    .handle (.activate second .done), .handle (.heartbeat first 7)]

end Demo

theorem worker_fence_takeover :
    ∃ s, runChecked (System.step Demo.rules) (fun y a => y.distinctLeases Demo.rules a) Demo.started Demo.takeover =
        some s ∧ s.last = some ⟨"b", 2, "two"⟩ ∧ s.earlier = ["two", "one"] ∧ Fenced Demo.rules s :=
  ⟨finalChecked (System.step Demo.rules) (fun y a => y.distinctLeases Demo.rules a)
      Demo.started Demo.takeover (by decide +kernel),
    runChecked_final .., by decide +kernel, by decide +kernel,
    worker_fence ⟨Demo.started, ⟨none, 1, 2, Demo.started.controller, rfl⟩,
      reach_finalChecked Demo.takeover (by decide +kernel)⟩⟩

end Paperboat.HostdProtocol
