import Paperboat.ConnectorProtocol.Opening
import Paperboat.ConnectorProtocol.ServerSession

/-! The server: how a session is admitted and attached to the registry, and the
operations of a session as one function of the session and the registry. -/

namespace Paperboat.ConnectorProtocol

/-! ### Attaching -/

structure AttachResult where
  current : SessionRef
  replaced : Option SessionRef

/-- A connector id is taken over by a newer process of the same tunnel only. -/
def SessionRegistry.attach (r : SessionRegistry) (ref : SessionRef) :
    Except Error AttachResult × SessionRegistry :=
  if !ref.validate then (.error (.bare .invalidInput), r)
  else match r ref.connectorID with
    | some previous =>
      if previous.tunnelID ≠ ref.tunnelID then
        (.error (codeError .identityMismatch .authentication false), r)
      else if ref.processGeneration ≤ previous.processGeneration then
        (.error (codeError .sessionConflict .staleGeneration false), r)
      else (.ok ⟨ref, some previous⟩, Function.update r ref.connectorID (some ref))
    | none => (.ok ⟨ref, none⟩, Function.update r ref.connectorID (some ref))

/-- Attaching changes one entry, and only to a newer generation. -/
theorem SessionRegistry.attach_cases (r : SessionRegistry) (ref : SessionRef) :
    (r.attach ref).2 = r ∨
      (r.attach ref).2 = Function.update r ref.connectorID (some ref) ∧
        ∀ p ∈ r ref.connectorID, p.processGeneration < ref.processGeneration := by
  unfold attach
  split
  · exact .inl rfl
  split
  next previous hp =>
    split
    · exact .inl rfl
    split
    · exact .inl rfl
    next hlt =>
      refine .inr ⟨rfl, fun p h => ?_⟩
      rw [hp, Option.mem_some_iff] at h
      subst h
      exact not_le.mp hlt
  next hn => exact .inr ⟨rfl, by simp [hn]⟩

section Attach

variable {ref : SessionRef}

theorem SessionRegistry.attach_ok {r r' : SessionRegistry} (h : r.attach ref = (.ok a, r')) :
    r' = Function.update r ref.connectorID (some ref) := by
  unfold attach at h
  split at h
  · cases h
  split at h
  · split at h
    · cases h
    split at h <;> cases h
    rfl
  · cases h
    rfl

/-- An entry that is not the removed reference stays. -/
theorem SessionRegistry.disconnect_of_ne {r : SessionRegistry} {id : String} (hq : r id = some q)
    (hne : q ≠ ref) : r.disconnect ref id = some q := by
  unfold disconnect
  split
  next h =>
    simp only [Bool.and_eq_true, beq_iff_eq] at h
    have hid : id ≠ ref.connectorID := by
      rintro rfl
      exact hne (Option.some.inj (hq.symm.trans h.2))
    rw [Function.update_of_ne hid, hq]
  next => exact hq

/-- Removal adds nothing. -/
theorem SessionRegistry.of_disconnect {r : SessionRegistry} {id : String}
    (h : r.disconnect ref id = some q) : r id = some q := by
  unfold disconnect at h
  split at h
  · by_cases hid : id = ref.connectorID
    · subst hid
      rw [Function.update_self] at h
      cases h
    · rwa [Function.update_of_ne hid] at h
  · exact h

end Attach

/-! ### Accepting -/

/-- A server as `NewServer` lets it through. -/
structure Server extends ServerConfig where
  heartbeatInterval : Duration
  lease_bound : 0 < leaseDuration ∧ leaseDuration ≤ maxLease
  heartbeat_bound : 0 < heartbeatInterval ∧ heartbeatInterval * 2 < leaseDuration
  capabilities_valid : validateCapabilities capabilities = .ok ()

def defaultLease : Duration := 45 * second

def defaultHeartbeat : Duration := 15 * second

namespace Server

/-- `NewServer`; a zero duration stands for the default. -/
def new (rules : PayloadRules) (leaseDuration heartbeatInterval : Duration)
    (capabilities : List String) : Except Error Server :=
  let lease := if leaseDuration = 0 then defaultLease else leaseDuration
  let heartbeat := if heartbeatInterval = 0 then defaultHeartbeat else heartbeatInterval
  if h : (0 < lease ∧ lease ≤ maxLease) ∧ (0 < heartbeat ∧ heartbeat * 2 < lease) ∧
      validateCapabilities capabilities = .ok () then
    .ok { rules := rules, leaseDuration := lease, capabilities := capabilities,
          heartbeatInterval := heartbeat, lease_bound := h.1, heartbeat_bound := h.2.1,
          capabilities_valid := h.2.2 }
  else .error (.bare .invalidInput)

/-- The authenticated identity is the one the hello claims. -/
def identityMatches (auth : AuthResult) (hello : Hello) : Bool :=
  auth.accountID == hello.accountID && auth.tunnelID == hello.tunnelID &&
    auth.connectorID == hello.connectorID && auth.hostID == hello.hostID &&
    auth.identityKeyID == hello.auth.identityKeyID &&
    auth.identityKeyThumbprint == hello.auth.identityKeyThumbprint &&
    auth.processGeneration == hello.processGeneration

/-- The lease of a new session, capped by the credential's and by the server's own. -/
def leaseFor (server : Server) (now : Time) (auth : AuthResult) (sessionID : String) : Lease where
  sessionID := sessionID
  expiresAt := min auth.leaseExpiresAt (now + server.leaseDuration)
  heartbeatIntervalMS := (server.heartbeatInterval / millisecond).toNat

def refFor (hello : Hello) (sessionID : String) : SessionRef :=
  ⟨hello.tunnelID, hello.connectorID, sessionID, hello.processGeneration⟩

def welcomeFor (version : String) (capabilities : List String) (lease : Lease) (now : Time) :
    Welcome where
  protocol := protocolName
  version := version
  sessionID := lease.sessionID
  capabilities := capabilities
  lease := lease
  requiresSnapshot := true
  serverTime := now

/-- Everything `Accept` does before it attaches. The answers of the
authenticator, of the snapshot source and of the session id source are given,
`none` is a failure. -/
def openSession (server : Server) (now : Time) (hello : Hello) (authenticated : Option AuthResult)
    (source : Option Snapshot) (drawn : Option String) :
    Except Error (ServerSession × Welcome) := do
  hello.validate now
  let version ← negotiateVersion hello.minVersion hello.maxVersion
  let capabilities ← negotiateCapabilities hello.capabilities server.capabilities
  match authenticated with
  | none => .error (codeError .authenticationFailed .authentication false)
  | some auth =>
    if (auth.validate now).toOption.isNone || !identityMatches auth hello then
      .error (codeError .authenticationFailed .authentication false)
    else match source with
    | none => .error (codeError .snapshotRejected .snapshotRejected true)
    | some snapshot =>
      if (snapshot.validate server.rules).toOption.isNone ||
          snapshot.tunnelID != hello.tunnelID then
        .error (codeError .snapshotRejected .snapshotRejected false)
      else match drawn with
      | none => .error (codeError .sessionConflict .authentication true)
      | some sessionID =>
        let lease := server.leaseFor now auth sessionID
        if !validateIdentifier sessionID then
          .error (codeError .sessionConflict .authentication true)
        else if ((lease.validate now).toOption.isNone) then
          .error (codeError .authenticationFailed .authentication false)
        else
          .ok (ServerSession.accept (refFor hello sessionID) auth lease capabilities
            { snapshot with
              accountID := hello.accountID, connectorID := hello.connectorID,
              sessionID := sessionID, processGeneration := hello.processGeneration } now,
            welcomeFor version capabilities lease now)

/-- The first snapshot that `Accept` also returns is the session's pending one. -/
def accept (server : Server) (r : SessionRegistry) (now : Time) (hello : Hello)
    (authenticated : Option AuthResult) (source : Option Snapshot) (drawn : Option String) :
    Except Error (ServerSession × Welcome) × SessionRegistry :=
  match server.openSession now hello authenticated source drawn with
  | .error err => (.error err, r)
  | .ok (session, welcome) =>
    match r.attach session.ref with
    | (.error err, r') => (.error err, r')
    | (.ok _, r') => (.ok (session, welcome), r')

/-- What an admitted session is. -/
structure Admitted (server : Server) (now : Time) (s : ServerSession) (w : Welcome) : Prop where
  fresh : ∃ snapshot : Snapshot, snapshot.generation ≠ 0 ∧
    s = ServerSession.accept s.ref s.auth s.lease w.capabilities snapshot now
  auth : s.auth.validate now = .ok ()
  lease : s.lease = server.leaseFor now s.auth s.ref.sessionID
  welcome : w.lease = s.lease

theorem eq_ok_of_toOption {β : Type} {x : Except Error β} {b : β} (h : x.toOption = some b) :
    x = .ok b := by
  cases x with
  | error => cases h
  | ok => cases h; rfl

theorem eq_ok_of_not_isNone {x : Except Error Unit} (h : ¬ x.toOption.isNone) : x = .ok () := by
  rw [Option.isNone_iff_eq_none] at h
  obtain ⟨_, hx⟩ := Option.ne_none_iff_exists'.mp h
  exact eq_ok_of_toOption hx

theorem admitted_of_ok {server : Server}
    (h : server.openSession now hello authenticated source drawn = .ok (s, w)) :
    Admitted server now s w ∧ drawn = some s.ref.sessionID := by
  simp only [openSession, bind, Except.bind] at h
  split at h
  · cases h
  split at h
  · cases h
  split at h
  · cases h
  split at h
  · cases h
  next auth =>
    split at h
    · cases h
    next hauth =>
      simp only [Bool.or_eq_true, not_or] at hauth
      split at h
      · cases h
      next snapshot =>
        split at h
        · cases h
        next hsnap =>
          simp only [Bool.or_eq_true, not_or] at hsnap
          split at h
          · cases h
          next id =>
            split at h
            · cases h
            split at h
            · cases h
            cases h
            have hgen := Snapshot.validate_generation (eq_ok_of_not_isNone hsnap.1)
            refine ⟨⟨⟨_, ?_, rfl⟩, eq_ok_of_not_isNone hauth.1, rfl, rfl⟩, rfl⟩
            exact hgen

section Accept

variable {server : Server} {r r' : SessionRegistry} {now : Time} {hello : Hello}
  {authenticated : Option AuthResult} {source : Option Snapshot} {drawn : Option String}

/-- `Accept` touches the registry by at most one attach. -/
theorem accept_registry :
    (server.accept r now hello authenticated source drawn).2 = r ∨
      ∃ ref, (server.accept r now hello authenticated source drawn).2 = (r.attach ref).2 := by
  unfold accept
  split
  · exact .inl rfl
  next session welcome _ =>
    refine .inr ⟨session.ref, ?_⟩
    split <;> rename_i h <;> rw [h]

theorem accept_ok {s : ServerSession}
    (h : server.accept r now hello authenticated source drawn = (.ok (s, w), r')) :
    Admitted server now s w ∧ drawn = some s.ref.sessionID ∧
      r' = Function.update r s.ref.connectorID (some s.ref) := by
  unfold accept at h
  split at h
  · cases h
  next session welcome hadmit =>
    split at h
    · cases h
    next hattach =>
      cases h
      obtain ⟨hs, hid⟩ := admitted_of_ok hadmit
      exact ⟨hs, hid, SessionRegistry.attach_ok hattach⟩

end Accept

end Server

/-! ### The operations of a session -/

namespace ServerSession

/-- The handlers, the periodic expiry check and the public close. -/
inductive Operation where
  | call (c : Call)
  | checkLease
  | close (reason : DisconnectReason)

/-- The session and the registry that an operation leaves behind. -/
def perform (config : ServerConfig) (s : ServerSession) (r : SessionRegistry) (now : Time) :
    Operation → ServerSession × SessionRegistry
  | .call (.offerSnapshot snapshot) => (offerSnapshot config s r now snapshot).left
  | .call (.offerDelta delta) => (offerDelta config s r now delta).left
  | .call (.handleAck ack) => (s.handleAck r now ack).left
  | .call (.handleReadiness readiness) => (s.handleReadiness r now readiness).left
  | .call (.handleHeartbeat heartbeat) => (handleHeartbeat config s r now heartbeat).left
  | .call (.beginDrain cancelled later drainID deadline force) =>
    (s.beginDrain r cancelled now later drainID deadline force).left
  | .call (.handleDrainAck cancelled ack) => (s.handleDrainAck r cancelled now ack).left
  | .call (.renewStart request) => (s.renewStart r now request).left
  | .call (.renewFinish renewal answer) => (renewFinish config s r now renewal answer).left
  | .checkLease => (s.ensureActive r now).2
  | .close reason => s.close r reason

/-- What `Current` reports: the active snapshot, whether it is ready, and the
generation last reported ready. -/
def current (s : ServerSession) : Snapshot × Bool × UInt64 :=
  if !s.hasActive then ({}, false, 0)
  else (s.active,
    s.state == .ready && !s.needsSnapshot && s.readyGeneration == s.active.generation,
    s.readyGeneration)

end ServerSession

/-! ### A server and a connector to run -/

namespace ServerSession.Demo

/-- The canonical payload of a tunnel without routes. -/
def payload (generation : UInt64) : String :=
  "\x7b\"access_mode\":\"public\",\"desired_state\":\"active\",\"expires_at\":null," ++
  "\"generation\":" ++ toString generation ++ ",\"kind\":\"tunnel_config_snapshot\"," ++
  "\"name\":\"demo\",\"routes\":[],\"schema\":\"paperboat.preview-tunnel/v1\"," ++
  "\"stable_endpoint\":\"https://demo.example.test\",\"tunnel_id\":\"tunnel_1\"\x7d"

/-- The SHA-256 hashes of the first three payloads. -/
def hash : UInt64 → String
  | 1 => "sha256:05aaad0ba974c21efc2ca866919599b1feda2d4bf342619317ce28575d6ac413"
  | 2 => "sha256:bc80193830d916d269f9af653eb9ecc5e123ce7561038b53f34ff7556694a809"
  | 3 => "sha256:16fffb6ddc5061483dd6a8380feedeece749c0ab8cbbf9df107b132628f61772"
  | _ => ""

def serverConfig : ServerConfig where
  rules :=
    { canonicalJSON := fun text _ => if [1, 2, 3].any (payload · == text) then some text else none
      contentHash := fun text => hash (([1, 2, 3].find? (payload · == text)).getD 0)
      configPayload := fun text tunnelID generation =>
        tunnelID == "tunnel_1" && payload generation == text }
  leaseDuration := 45 * second
  capabilities := [capabilityDrain]

def ref : SessionRef := ⟨"tunnel_1", "connector_1", "sess_1", 1⟩

def auth : AuthResult where
  accountID := "account_1"
  tunnelID := "tunnel_1"
  connectorID := "connector_1"
  hostID := "host_1"
  identityKeyID := "ed25519:AAAAAAAAAAAAAAAAAAAAAAAAAAAAAAAAAAAAAAAAAAA"
  identityKeyThumbprint := "AAAAAAAAAAAAAAAAAAAAAAAAAAAAAAAAAAAAAAAAAAA"
  processGeneration := 1
  credentialGeneration := 1
  credentialExpiresAt := 3600 * second
  leaseExpiresAt := 100 * second

def snapshot (generation : UInt64) : Snapshot :=
  { tunnelID := "tunnel_1", generation := generation, contentHash := hash generation,
    payload := payload generation }

end ServerSession.Demo

namespace Server.Demo

def capabilities : List String := requiredCapabilities ++ [capabilityDrain]

/-- A server with the default durations. -/
def server : Server :=
  (Server.new ServerSession.Demo.serverConfig.rules 0 0 capabilities).toOption.get (by decide +kernel)

def hello (processGeneration : ℕ) : Hello where
  protocol := protocolName
  minVersion := "1.0"
  maxVersion := "1.0"
  accountID := "account_1"
  tunnelID := "tunnel_1"
  connectorID := "connector_1"
  hostID := "host_1"
  processGeneration := processGeneration
  capabilities := capabilities
  auth :=
    { accountID := "account_1", tunnelID := "tunnel_1", connectorID := "connector_1",
      hostID := "host_1", identityKeyID := ServerSession.Demo.auth.identityKeyID,
      identityKeyThumbprint := ServerSession.Demo.auth.identityKeyThumbprint,
      processGeneration := processGeneration, credentialGeneration := 1,
      nonce := "nonce_0123456789", signedProof := "proof_0123456789abcdef0123456789",
      issuedAt := second, expiresAt := 600 * second }

def auth (processGeneration : ℕ) : AuthResult :=
  { ServerSession.Demo.auth with processGeneration := processGeneration }

/-- The first process of the connector is admitted. -/
def admission : Except Error (ServerSession × Welcome) :=
  server.openSession second (hello 1) (some (auth 1)) (some (ServerSession.Demo.snapshot 1))
    (some "sess_1")

end Server.Demo

end Paperboat.ConnectorProtocol
