import Paperboat.Lib.Channel
import Paperboat.Lib.Transition
import Paperboat.ResumableStream.Moves

/-! Two ends of one resumable stream and the links between them. A link is a pair
of channels, one for each direction, that delivers in order and may lose its tail.
The carrier id that the initiator draws for a link is the link's own name: ids are
drawn at random and taken to be distinct. -/

namespace Paperboat.ResumableStream

open Transition

structure System where
  conn : Role → Conn
  /-- What an end wrote to a link and the other end has not read. -/
  chan : Link → Role → Channel Packet := fun _ _ => {}

namespace System

def init (window : ℕ) (identity : Digest) : System where
  conn r := .new r window identity

def setConn (s : System) (r : Role) (c : Conn) : System :=
  { s with conn := Function.update s.conn r c }

def setChan (s : System) (l : Link) (r : Role) (c : Channel Packet) : System :=
  { s with chan := Function.update s.chan l (Function.update (s.chan l) r c) }

/-- The steps an end takes without its links. The initiator prepares carriers and
the responder accepts them. -/
def isLocal (r : Role) : Conn.Input → Bool
  | .prepareCarrier l id => r = .initiator && id = l
  | .acceptCarrier _ => r = .responder
  | .sent _ | .sendErr _ | .recv _ _ | .recvErr _ => false
  | _ => true

inductive Action where
  | act (r : Role) (i : Conn.Input)
  /-- A goroutine of `r` writes its packet. -/
  | send (r : Role) (t : Conn.Task)
  /-- The write fails, nothing more gets through. -/
  | sendErr (r : Role) (t : Conn.Task)
  /-- `r` reads the next packet of a link. -/
  | recv (r : Role) (l : Link)
  | recvErr (r : Role) (l : Link)
  /-- The link loses what `r` wrote to it after the first `n` packets in flight. -/
  | lose (r : Role) (l : Link) (n : ℕ)

def step (s : System) : Action → Option System
  | .act r i => if isLocal r i then ((s.conn r).step i).map (s.setConn r) else none
  | .send r t => do
    let (l, p) ← (s.conn r).pending t
    -- Writing to a link we closed fails.
    if ((s.conn r).carrier l).link ≠ .opened then none
    else
      let c ← (s.conn r).step (.sent t)
      some ((s.setConn r c).setChan l r ((s.chan l r).send p))
  | .sendErr r t => do
    let (l, _) ← (s.conn r).pending t
    let c ← (s.conn r).step (.sendErr t)
    some ((s.setConn r c).setChan l r (s.chan l r).breakOff)
  | .recv r l => do
    let (p, rest) ← (s.chan l r.peer).recv
    let c ← (s.conn r).step (.recv l p)
    some ((s.setConn r c).setChan l r.peer rest)
  | .recvErr r l => ((s.conn r).step (.recvErr l)).map (s.setConn r)
  | .lose r l n => some (s.setChan l r ((s.chan l r).lose n))

/-! ### What a step changes -/

section Fields

variable (s : System) (r r' : Role) (l l' : Link) (c : Conn) (ch : Channel Packet)

@[simp] theorem setConn_same : (s.setConn r c).conn r = c := Function.update_self ..

@[simp] theorem setConn_peer : (s.setConn r c).conn r.peer = s.conn r.peer :=
  Function.update_of_ne r.peer_ne ..

theorem conn_setConn : (s.setConn r c).conn r' = if r' = r then c else s.conn r' :=
  Function.update_apply ..

@[simp] theorem chan_setConn : (s.setConn r c).chan = s.chan := rfl

@[simp] theorem conn_setChan : (s.setChan l r ch).conn = s.conn := rfl

theorem chan_setChan : (s.setChan l r ch).chan l' r' = if l' = l ∧ r' = r then ch else s.chan l' r' := by
  by_cases hl : l' = l
  · subst hl
    by_cases hr : r' = r <;> simp [setChan, hr]
  · simp [setChan, hl]

end Fields

/-- The outcomes of a step: one end moves, and the channel it used changes with it. -/
inductive Moved (s : System) : Action → System → Prop
  | act {r : Role} {i : Conn.Input} {d : Conn} (hloc : isLocal r i)
      (hd : (s.conn r).step i = some d) : Moved s (.act r i) (s.setConn r d)
  | send {r : Role} {t : Conn.Task} {l : Link} {p : Packet} {d : Conn}
      (hp : (s.conn r).pending t = some (l, p)) (hl : ((s.conn r).carrier l).link = .opened)
      (hd : (s.conn r).step (.sent t) = some d) :
      Moved s (.send r t) ((s.setConn r d).setChan l r ((s.chan l r).send p))
  | sendErr {r : Role} {t : Conn.Task} {l : Link} {p : Packet} {d : Conn}
      (hp : (s.conn r).pending t = some (l, p)) (hd : (s.conn r).step (.sendErr t) = some d) :
      Moved s (.sendErr r t) ((s.setConn r d).setChan l r (s.chan l r).breakOff)
  | recv {r : Role} {l : Link} {p : Packet} {rest : Channel Packet} {d : Conn}
      (hq : (s.chan l r.peer).queue = p :: rest.queue)
      (hb : rest.broken = (s.chan l r.peer).broken)
      (hd : (s.conn r).step (.recv l p) = some d) :
      Moved s (.recv r l) ((s.setConn r d).setChan l r.peer rest)
  | recvErr {r : Role} {l : Link} {d : Conn} (hd : (s.conn r).step (.recvErr l) = some d) :
      Moved s (.recvErr r l) (s.setConn r d)
  | lose {r : Role} {l : Link} {n : ℕ} :
      Moved s (.lose r l n) (s.setChan l r ((s.chan l r).lose n))

variable {s' : System} {a : Action}

theorem moved_of_step (h : s.step a = some s') : Moved s a s' := by
  cases a with
  | act r i =>
    simp only [step] at h
    split at h
    next hloc =>
      obtain ⟨d, hd, rfl⟩ := Option.map_eq_some_iff.mp h
      exact .act hloc hd
    next => contradiction
  | send r t =>
    simp only [step, bind, Option.bind_eq_some_iff] at h
    obtain ⟨⟨l, p⟩, hp, h⟩ := h
    split at h
    next => contradiction
    next hl =>
      obtain ⟨d, hd, h⟩ := Option.bind_eq_some_iff.mp h
      cases h
      exact .send hp (not_not.mp hl) hd
  | sendErr r t =>
    simp only [step, bind, Option.bind_eq_some_iff] at h
    obtain ⟨⟨l, p⟩, hp, d, hd, h⟩ := h
    cases h
    exact .sendErr hp hd
  | recv r l =>
    simp only [step, bind, Option.bind_eq_some_iff] at h
    obtain ⟨⟨p, rest⟩, hp, d, hd, h⟩ := h
    cases h
    obtain ⟨hq, hb⟩ := Channel.recv_eq_some hp
    exact .recv hq hb hd
  | recvErr r l =>
    obtain ⟨d, hd, rfl⟩ := Option.map_eq_some_iff.mp h
    exact .recvErr hd
  | lose r l n => cases h; exact .lose

/-- What every move of one end has in common, a step of the system gives for both. -/
theorem rel_step (R : Conn → Conn → Prop) (hrefl : ∀ c, R c c)
    (hmove : ∀ {c i d}, Conn.Move c i d → R c d) {s : System}
    (h : s.step a = some s') (r : Role) : R (s.conn r) (s'.conn r) := by
  have hend : ∀ {q i d}, (s.conn q).step i = some d → R (s.conn r) ((s.setConn q d).conn r) := by
    intro q i d hd
    rw [conn_setConn]
    split
    next hq => subst hq; exact hmove (Conn.move_of_step hd)
    next => exact hrefl _
  cases moved_of_step h with
  | act _ hd | send _ _ hd | sendErr _ hd | recv _ _ hd | recvErr hd => exact hend hd
  | lose => exact hrefl _

/-! ### Exchanges without losses -/

/-- PREPARE and READY over a fresh link. -/
def prepare (l : Link) : List Action :=
  [.act .initiator (.prepareCarrier l l), .send .initiator .call,
    .act .responder (.acceptCarrier l), .recv .responder l, .send .responder .call,
    .act .responder .acceptFinish, .recv .initiator l]

/-- COMMIT and COMMIT_ACK over a prepared carrier. -/
def commit (l : Link) (epoch : ℕ) : List Action :=
  [.act .initiator (.promoteCarrier ⟨l, epoch⟩), .send .initiator .call, .recv .responder l,
    .act .responder (.process l), .send .responder (.reader l), .recv .initiator l,
    .act .initiator (.process l), .act .initiator .promoteWake]

/-- CONFIRM retires the previous carrier at both ends. -/
def confirm (l : Link) : List Action :=
  [.send .initiator (.sender l), .act .initiator (.retire l), .recv .responder l,
    .act .responder (.process l)]

/-- `r` writes its next DATA or FIN frame and the peer takes it. -/
def transfer (r : Role) (l : Link) : List Action :=
  [.act r (.writeActive l), .send r (.sender l), .recv r.peer l, .act r.peer (.dispose l),
    .act r.peer (.process l)]

/-- The link dies and both readers notice. -/
def sever (l : Link) : List Action :=
  [.lose .initiator l 0, .lose .responder l 0, .recvErr .initiator l, .recvErr .responder l]

end System

end Paperboat.ResumableStream
