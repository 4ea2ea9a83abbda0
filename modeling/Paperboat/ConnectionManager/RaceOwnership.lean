import Paperboat.ConnectionManager.Race

/-! Where the connections of a race are. A connection that `Connector.Connect` returned
is closed, in a report nobody has read, kept by the main loop, or handed to the caller.
The main loop moves a connection from one place to another and never has it in two. -/

namespace Paperboat.ConnectionManager

open Transition

/-- The connection in a report. -/
def Outcome.connections (o : Outcome) : List ℕ :=
  match o.result with
  | .ok _ => [o.index]
  | .error _ => []

/-- The carrier that the main loop makes of a report. -/
def Outcome.carrier (o : Outcome) : Option Carrier :=
  match o.result with
  | .ok region => some ⟨o.path, region, o.index⟩
  | .error _ => none

theorem Outcome.connections_carrier (o : Outcome) : Race.connections o.carrier = o.connections := by
  unfold carrier connections
  split <;> rfl

theorem Outcome.of_carrier {o : Outcome} (h : o.carrier = some c) :
    c.connection = o.index ∧ c.path = o.path := by
  unfold carrier at h
  split at h <;> cases h
  exact ⟨rfl, rfl⟩

def Selection.connections (w : Selection) : List ℕ :=
  w.connection :: Race.connections w.standby

def StandbyResult.connections : StandbyResult → List ℕ
  | .selection c => [c.connection]
  | .err _ => []

/-- How many reports the goroutine in the background still reads. -/
def Background.pending : Background → ℕ
  | await n | drain n _ => n
  | returned => 0

@[simp] theorem Background.pending_awaiting (n : ℕ) : (awaiting n).pending = n := by
  unfold awaiting
  split
  next h => exact h.symm
  next => rfl

@[simp] theorem Background.pending_draining (n j : ℕ) : (draining n j).pending = n := by
  unfold draining
  split
  next h => exact h.symm
  next => rfl

namespace Race

/-- The connections in the reports nobody has read. -/
def unread (s : Race) : List ℕ := s.results.flatMap Outcome.connections

/-- The connections that the variables of the main loop refer to. -/
def kept (s : Race) : List ℕ :=
  s.winner.toList.flatMap Selection.connections ++ connections s.readyFallback ++
    connections s.readyWSS

/-- The connections that the caller has or may receive. -/
def handed (s : Race) : List ℕ :=
  (match s.returned with
    | some (.ok w) => w.connections
    | _ => []) ++ s.standbyReady.flatMap StandbyResult.connections

/-- In how many places a connection is. -/
def tally (s : Race) (i : ℕ) : ℕ :=
  s.closed.count i + s.unread.count i + s.kept.count i + s.handed.count i

variable {s t : Race} {i : ℕ}

/-! ### What the handlers leave alone -/

/-- Neither the candidates nor their reports change. -/
structure Frame (s t : Race) : Prop where
  config : t.config = s.config
  mode : t.mode = s.mode
  candidates : t.candidates = s.candidates
  running : t.running = s.running
  results : t.results = s.results
  produced : t.produced = s.produced
  received : t.received = s.received
  completed : t.completed = s.completed

theorem Frame.refl (s : Race) : Frame s s := ⟨rfl, rfl, rfl, rfl, rfl, rfl, rfl, rfl⟩

theorem frame_conclude (s : Race) : Frame s s.conclude :=
  { Frame.refl s with }

/-- A failure that ends the race in whoever reads it. -/
def fatal (o : Outcome) : Bool :=
  match o.result with
  | .ok _ => false
  | .error err => !(typedFailure o.path err).allowsFallback

/-- `awaitWarmFallback` hands the connection of a report on, and returns early at a fatal
failure only. -/
theorem warm_eq (s : Race) (n : ℕ) (o : Outcome) : ∃ b begun ready,
    s.warm n o = { s with
      begun := begun, standbyReady := s.standbyReady ++ ready, background := b } ∧
    ready.flatMap StandbyResult.connections = o.connections ∧
    (b = .awaiting (n - 1) ∨ fatal o = true ∧ b = .returned) := by
  unfold warm fatal Outcome.connections
  cases o.result with
  | ok region => exact ⟨_, _, _, rfl, rfl, .inl rfl⟩
  | error err =>
    dsimp only
    split
    · unfold begin
      split <;> exact ⟨_, _, [], by simp only [List.append_nil]; rfl, rfl, .inl rfl⟩
    next h => exact ⟨_, _, _, rfl, rfl, .inr ⟨by simpa using h, rfl⟩⟩

/-- `drainCandidateResults` closes the connection of a report that is not fatal. -/
theorem discard_eq (s : Race) (n selected : ℕ) (o : Outcome) : ∃ closed,
    s.discard n selected o = { s with
      background := .draining (n - 1) selected, closed := s.closed ++ closed } ∧
    (fatal o = false → closed = o.connections) := by
  unfold discard fatal Outcome.connections
  cases o.result with
  | ok region => exact ⟨_, rfl, fun _ => rfl⟩
  | error err =>
    dsimp only
    split
    · exact ⟨[], by simp [List.append_nil], fun _ => rfl⟩
    next h => exact ⟨_, rfl, fun hf => absurd (by simpa using hf) h⟩

/-! ### Connections change places -/

variable {w : Selection} {c f : Carrier} {path : Path} {a : Action}

theorem tally_close (s : Race) (j i : ℕ) : (s.close j).tally i = s.tally i + [j].count i := by
  simp only [tally, close, unread, kept, handed, List.count_append]
  omega

theorem tally_returnWarm (hr : s.returned = none) (hw : s.winner = none) :
    (s.returnWarm w).tally i = s.tally i + w.connections.count i := by
  simp only [tally, returnWarm, unread, kept, handed, hr, hw, List.count_append,
    List.count_nil]
  omega

theorem tally_returnCold (hr : s.returned = none) (hw : s.winner = none) :
    (s.returnCold w).tally i = s.tally i + w.connections.count i :=
  tally_returnWarm (s := s.cancel) hr hw

/-- The fallback is taken out of its variable. -/
theorem tally_fallback (hf : s.readyFallback = some f) :
    s.tally i = Race.tally { s with readyFallback := none } i + [f.connection].count i := by
  simp only [tally, unread, kept, handed, hf, connections, Option.toList_some, Option.toList_none,
    List.map_cons, List.map_nil, List.count_append, List.count_nil]
  omega

/-- A selection without a standby becomes the winner. -/
theorem tally_winner (hw : s.winner = none) (hs : w.standby = none) :
    Race.tally { s.cancel with winner := some w } i = s.tally i + [w.connection].count i := by
  simp only [tally, unread, kept, handed, cancel, hw, hs, Selection.connections, connections,
    Option.toList_some, Option.toList_none, List.flatMap_cons, List.flatMap_nil, List.map_nil,
    List.count_append, List.count_nil]
  omega

/-- A handler of the main loop finds one place for the connection it is given, if any, and
leaves the others where they are. Only a connection of the relay becomes the fallback. -/
structure Placed (s : Race) (c : Option Carrier) (t : Race) : Prop where
  frame : Frame s t
  tally : ∀ i, t.tally i = s.tally i + (connections c).count i
  fallback : ∀ f, t.readyFallback = some f →
    s.readyFallback = some f ∨ c = some f ∧ f.path = .relayQUIC

theorem Placed.refl (s : Race) : Placed s none s := ⟨.refl s, fun _ => rfl, fun _ => .inl⟩

/-! ### The variables of the main loop -/

/-- While the main loop runs, nothing is held back for a direct path that is out of the
race, and no winner while there is one. Without WSS next to the direct path, a winner has
no standby. -/
structure Local (s : Race) : Prop where
  wss : s.readyWSS = none
  fallback : s.readyFallback ≠ none → s.mode ≠ .auto ∧ s.mode ≠ .relayRace ∧
    s.prefersDirect = true ∧ s.winner = none
  winner : ∀ w, s.winner = some w →
    w.standby = none ∧ s.directEligible = false ∧ s.mode ≠ .auto ∧ s.mode ≠ .relayRace
  finished : s.directFinished = true → s.directEligible = false
  eligible : s.directEligible = true → s.prefersDirect = true
  running : s.returned = none
  idle : s.background = .returned

theorem Local.failOn {index : ℕ} {failure : Failure} (h : Local t) (hp : Placed s none t) :
    Placed s none (t.failOn index failure) ∧ Local (t.failOn index failure) := by
  obtain ⟨hframe, htally, hfall⟩ := hp
  unfold Race.failOn Race.begin
  repeat' split
  all_goals
    exact ⟨⟨{ hframe with }, htally, hfall⟩, { h with }⟩

theorem Local.heldBack (h : Local s) (hw : s.heldBack = some w) :
    s.readyFallback = some w.toCarrier ∧ w.standby = none := by
  unfold Race.heldBack at hw
  rw [h.wss] at hw
  cases hf : s.readyFallback with
  | none =>
    rw [hf] at hw
    cases hw
  | some f =>
    rw [hf] at hw
    cases hw
    exact ⟨rfl, rfl⟩

theorem Local.fail (h : Local s) (index : ℕ) (path : Path) (err : Err) :
    Placed s none (s.fail index path err) ∧ Local (s.fail index path err) := by
  unfold Race.fail
  dsimp only
  split
  · exact ⟨.refl s, h⟩
  · split
    next w hw =>
      split
      · exact ⟨.refl s, h⟩
      · refine ⟨⟨{ Frame.refl s with }, fun i => ?_, fun _ => .inl⟩,
          { h with fallback := fun hf => ?_, winner := nofun }⟩
        · have ht := tally_winner (s := { s with winner := none }) (i := i) rfl (h.winner w hw).1
          have hc := tally_close { s with winner := none } w.connection i
          rw [← hw] at ht
          exact hc.trans ht.symm
        · obtain ⟨ha, hr, hp, -⟩ := h.fallback hf
          exact ⟨ha, hr, hp, rfl⟩
    next hw =>
      have hplaced : Placed s none { s with
          directFinished := true, directEligible := false, preference := false } :=
        ⟨{ Frame.refl s with }, fun _ => rfl, fun _ => .inl⟩
      have hdirect : Local { s with
          directFinished := true, directEligible := false, preference := false } :=
        { h with
          winner := fun w hw' => absurd (hw.symm.trans hw') nofun
          finished := fun _ => rfl
          eligible := nofun }
      split
      · split
        next w hheld =>
          split
          · obtain ⟨hf, hs⟩ := h.heldBack hheld
            have hmode := h.fallback (by simp [hf])
            refine ⟨⟨{ Frame.refl s with }, fun i => ?_, nofun⟩,
              ⟨rfl, fun hf => absurd rfl hf, fun v hv => ?_, fun _ => rfl, nofun, h.running,
                h.idle⟩⟩
            · rw [tally_fallback hf]
              refine .trans ?_ (tally_winner (s := { s with readyFallback := none }) hw hs)
              rw [tally, tally, kept, kept, h.wss]
              rfl
            · cases hv
              exact ⟨hs, rfl, hmode.1, hmode.2.1⟩
          · exact hdirect.failOn hplaced
        next => exact hdirect.failOn hplaced
      · exact h.failOn (.refl s)

/-- The main loop has returned a selection, what it kept is in it, and `n` reports are
left. -/
structure Left (n : ℕ) (s : Race) : Prop where
  returned : ∃ w, s.returned = some (.ok w)
  kept : s.kept = []
  background : s.background = .awaiting n ∨ ∃ j, s.background = .draining n j

/-- The carrier is not of a kind that is out of place. -/
structure Fits (s : Race) (c : Carrier) : Prop where
  wss : s.prefersDirect = true → c.path ≠ .wss
  relay : s.readyFallback ≠ none → c.path ≠ .relayQUIC

theorem Local.winner_none (h : Local s) (hm : s.mode = .auto ∨ s.mode = .relayRace) :
    s.winner = none := by
  cases hw : s.winner with
  | none => rfl
  | some w =>
    obtain ⟨-, -, ha, hr⟩ := h.winner w hw
    exact absurd hm (not_or.mpr ⟨ha, hr⟩)

theorem Local.fallback_none (h : Local s) (hm : s.mode = .auto ∨ s.mode = .relayRace) :
    s.readyFallback = none := by
  by_contra hf
  obtain ⟨ha, hr, -⟩ := h.fallback hf
  exact absurd hm (not_or.mpr ⟨ha, hr⟩)

theorem Local.winner_of_eligible (h : Local s) (he : s.directEligible = true) : s.winner = none := by
  cases hw : s.winner with
  | none => rfl
  | some w => simp [(h.winner w hw).2.1] at he

/-- Once the relay is held back, only the direct path is left. -/
theorem Local.fallback_of_other (h : Local s) (hc : Fits s c)
    (hdirect : ¬(s.prefersDirect = true ∧ c.path = .directQUIC)) : s.readyFallback = none := by
  by_contra hf
  have hp := (h.fallback hf).2.2.1
  have hwss := hc.wss hp
  have hrelay := hc.relay hf
  cases hpath : c.path with
  | directQUIC => exact hdirect ⟨hp, hpath⟩
  | relayQUIC => exact hrelay hpath
  | wss => exact hwss hpath

theorem left_returnWarm (hf : s.readyFallback = none) (hw : s.readyWSS = none) :
    Left s.remaining (s.returnWarm w) :=
  ⟨⟨w, rfl⟩, by simp [kept, returnWarm, hf, hw, connections], .inl rfl⟩

theorem left_returnCold (hf : s.readyFallback = none) (hw : s.readyWSS = none) :
    Left s.remaining (s.returnCold w) :=
  ⟨⟨w, rfl⟩, by simp [kept, returnCold, cancel, hf, hw, connections], .inr ⟨_, rfl⟩⟩

theorem placed_close (s : Race) (c : Carrier) : Placed s (some c) (s.close c.connection) :=
  ⟨{ Frame.refl s with }, tally_close s c.connection, fun _ => .inl⟩

theorem Local.succeedDirect (h : Local s) (c : Carrier) :
    Placed s (some c) (s.succeedDirect c) ∧
      (Local (s.succeedDirect c) ∨ Left s.remaining (s.succeedDirect c)) := by
  unfold Race.succeedDirect
  split
  next he =>
    have hw := h.winner_of_eligible he
    split
    next hwss => rw [h.wss] at hwss; cases hwss
    next f hf hwss =>
      refine ⟨⟨{ Frame.refl s with }, fun i => ?_, nofun⟩,
        .inr (left_returnCold (s := { s with directFinished := true, readyFallback := none }) rfl hwss)⟩
      rw [tally_fallback hf]
      refine (tally_returnCold (s := { s with readyFallback := none }) h.running hw).trans ?_
      simp only [Selection.connections, connections, Option.toList_some, List.map_cons, List.map_nil,
        List.count_cons, List.count_nil]
      omega
    next hwss => rw [h.wss] at hwss; cases hwss
    next hf hwss =>
      exact ⟨⟨{ Frame.refl s with },
          fun _ => tally_returnWarm (s := { s with directFinished := true }) h.running hw,
          fun _ => .inl⟩,
        .inr (left_returnWarm (s := { s with directFinished := true }) hf hwss)⟩
  next he =>
    exact ⟨⟨{ Frame.refl s with }, tally_close s c.connection, fun _ => .inl⟩,
      .inl { h with finished := fun _ => Bool.eq_false_iff.mpr he }⟩

/-- Where the path is not held back, the direct path is out of the race. -/
theorem Local.not_eligible (h : Local s) (hc : Fits s c)
    (hheld : ¬(s.prefersDirect = true ∧ c.path = .relayQUIC ∧ s.directEligible = true ∧
      s.directFinished = false))
    (hdirect : ¬(s.prefersDirect = true ∧ c.path = .directQUIC)) : s.directEligible = false := by
  by_contra he
  have he : s.directEligible = true := by simpa using he
  have hp := h.eligible he
  have hfin : s.directFinished = false := by
    by_contra hf
    simp [h.finished (by simpa using hf)] at he
  have hwss := hc.wss hp
  cases hpath : c.path with
  | directQUIC => exact hdirect ⟨hp, hpath⟩
  | relayQUIC => exact hheld ⟨hp, hpath, he, hfin⟩
  | wss => exact hwss hpath

theorem Local.succeed (h : Local s) (hc : Fits s c) :
    Placed s (some c) (s.succeed c) ∧ (Local (s.succeed c) ∨ Left s.remaining (s.succeed c)) := by
  unfold Race.succeed
  split
  next hm =>
    have hw := h.winner_none hm
    have hf := h.fallback_none hm
    split
    · exact ⟨⟨{ Frame.refl s with }, fun _ => tally_returnCold h.running hw,
        fun _ => .inl⟩, .inr (left_returnCold hf h.wss)⟩
    · exact ⟨⟨{ Frame.refl s with }, fun _ => tally_returnWarm h.running hw,
        fun _ => .inl⟩, .inr (left_returnWarm hf h.wss)⟩
  next hm =>
    obtain ⟨ha, hr⟩ := not_or.mp hm
    split
    next hp =>
      have hf : s.readyFallback = none := by
        by_contra hf
        exact hc.relay hf hp.2.1
      refine ⟨⟨{ Frame.refl s with }, fun i => ?_,
          fun f hf' => .inr ⟨hf', (Option.some.inj hf') ▸ hp.2.1⟩⟩,
        .inl { h with fallback := fun _ => ⟨ha, hr, hp.1, h.winner_of_eligible hp.2.2.1⟩ }⟩
      rw [tally_fallback (s := { s with readyFallback := some c }) rfl, ← hf]
      rfl
    next hheld =>
      split
      next hp => exact absurd hp.2.1 (hc.wss hp.1)
      next =>
        split
        next => exact h.succeedDirect c
        next hdirect =>
          have he := h.not_eligible hc hheld hdirect
          have hf := h.fallback_of_other hc hdirect
          split
          next hnone =>
            split
            next =>
              refine ⟨⟨{ Frame.refl s with }, fun i => ?_, nofun⟩,
                .inl { h with fallback := fun hf => absurd rfl hf, winner := fun w hw => ?_ }⟩
              · rw [← hf]
                exact tally_winner hnone.1 hf
              · cases hw
                exact ⟨hf, he, ha, hr⟩
            next =>
              refine ⟨⟨{ Frame.refl s with },
                  fun _ => tally_winner hnone.1 rfl, fun _ => .inl⟩,
                .inl { h with fallback := fun hf' => absurd hf hf', winner := fun w hw => ?_ }⟩
              cases hw
              exact ⟨rfl, he, ha, hr⟩
          next => exact ⟨placed_close s c, .inl { h with }⟩

theorem Local.prefer (h : Local s) :
    Placed s none s.prefer ∧ (Local s.prefer ∨ Left s.remaining s.prefer) := by
  unfold Race.prefer
  dsimp only
  split
  next hw => rw [h.wss] at hw; cases hw
  next f hf hw =>
    refine ⟨⟨{ Frame.refl s with }, fun i => ?_, nofun⟩,
      .inr (left_returnWarm (s := { s with
        preference := false, directEligible := false, readyFallback := none }) rfl hw)⟩
    rw [tally_fallback hf]
    exact tally_returnWarm (s := { s with
      preference := false, directEligible := false, readyFallback := none })
      (w := { toCarrier := f }) h.running (h.fallback (by simp [hf])).2.2.2
  next hw => rw [h.wss] at hw; cases hw
  next =>
    refine ⟨⟨{ Frame.refl s with }, fun _ => rfl, fun _ => .inl⟩,
      .inl ⟨h.wss, h.fallback, fun w hw => ?_, fun _ => rfl, nofun, h.running, h.idle⟩⟩
    obtain ⟨hs, -, hmode⟩ := h.winner w hw
    exact ⟨hs, rfl, hmode⟩

theorem tally_conclude (h : Local s) : s.conclude.tally i = s.tally i := by
  simp only [conclude, tally, unread, kept, handed, cancel, h.running, h.wss]
  cases hw : s.winner with
  | some w =>
    simp [connections]
    omega
  | none =>
    cases s.terminal with
    | some f =>
      simp [connections]
      omega
    | none =>
      cases s.parentDone <;> simp [connections] <;> omega

theorem tally_warm (s : Race) (n : ℕ) (o : Outcome) (i : ℕ) :
    (s.warm n o).produced = s.produced ∧
      (s.warm n o).tally i = s.tally i + o.connections.count i := by
  obtain ⟨b, begun, ready, heq, hready, -⟩ := warm_eq s n o
  rw [heq]
  refine ⟨rfl, ?_⟩
  simp only [tally, unread, kept, handed, List.flatMap_append, hready, List.count_append]
  omega

theorem tally_discard {o : Outcome} (h : fatal o = false) :
    (s.discard n selected o).produced = s.produced ∧
      (s.discard n selected o).tally i = s.tally i + o.connections.count i := by
  obtain ⟨closed, heq, hclosed⟩ := discard_eq s n selected o
  rw [heq, hclosed h]
  refine ⟨rfl, ?_⟩
  simp only [tally, unread, kept, handed, List.count_append]
  omega

/-! ### The steps -/

/-- The path that the candidate with this index tries. -/
def pathOf (s : Race) (i : ℕ) : Option Path := s.candidates[i]?.map (·.path)

structure Lawful (s : Race) : Prop where
  nodup : (s.candidates.map (·.path)).Nodup
  wss : s.prefersDirect = true → .wss ∉ s.candidates.map (·.path)
  genuine : ∀ o ∈ s.results, s.pathOf o.index = some o.path
  fallback : ∀ f, s.readyFallback = some f →
    s.pathOf f.connection = some .relayQUIC ∧ f.connection ∈ s.received.map (·.index)
  fresh : (s.received.map (·.index) ++ s.results.map (·.index) ++ s.running).Nodup
  produced : s.produced.Nodup ∧ ∀ i ∈ s.produced, i ∉ s.running
  kept : Local s ∨ s.returned ≠ none ∧ s.kept = []

theorem mem_of_pathOf (h : s.pathOf i = some p) : p ∈ s.candidates.map (·.path) := by
  obtain ⟨c, hc, rfl⟩ := Option.map_eq_some_iff.mp h
  exact List.mem_map_of_mem (List.mem_of_getElem? hc)

/-- No two candidates try one path. -/
theorem Lawful.pathOf_inj (h : Lawful s) (hi : s.pathOf i = some p) (hj : s.pathOf j = some p) :
    i = j := by
  have hget : ∀ {k}, s.pathOf k = some p → (s.candidates.map (·.path))[k]? = some p :=
    fun hk => by rw [List.getElem?_map]; exact hk
  obtain ⟨hlt, -⟩ := List.getElem?_eq_some_iff.mp (hget hi)
  exact (List.getElem?_inj hlt h.nodup).mp ((hget hi).trans (hget hj).symm)

/-- A step of `connect` that leaves the candidates and their reports alone. -/
theorem Lawful.frame (h : Lawful s) (hf : Frame s t)
    (hfall : ∀ f, t.readyFallback = some f → s.readyFallback = some f ∨
      s.pathOf f.connection = some .relayQUIC ∧ f.connection ∈ s.received.map (·.index))
    (hkept : Local t ∨ t.returned ≠ none ∧ t.kept = []) : Lawful t := by
  have hpath : ∀ i, t.pathOf i = s.pathOf i := fun i => by rw [pathOf, hf.candidates, pathOf]
  refine ⟨by rw [hf.candidates]; exact h.nodup, fun hp => ?_, fun o ho => ?_, fun f hfb => ?_, ?_, ?_,
    hkept⟩
  · rw [prefersDirect, hf.mode, hf.candidates] at hp
    rw [hf.candidates]
    exact h.wss hp
  · rw [hpath]
    exact h.genuine o (hf.results ▸ ho)
  · rw [hpath, hf.received]
    exact (hfall f hfb).elim (h.fallback f) id
  · rw [hf.received, hf.results, hf.running]
    exact h.fresh
  · rw [hf.produced, hf.running]
    exact h.produced

/-- The main loop has read a report and not looked at it. -/
def read (s : Race) (o : Outcome) (rest : List Outcome) : Race :=
  { s with results := rest, completed := s.completed + 1, received := s.received ++ [o] }

section Read

variable {o : Outcome} {rest : List Outcome}

theorem tally_results (hr : s.results = o :: rest) :
    s.tally i = Race.tally { s with results := rest } i + o.connections.count i := by
  simp only [tally, unread, kept, handed, hr, List.flatMap_cons, List.count_append]
  omega

theorem handle_eq (s : Race) (o : Outcome) (rest : List Outcome) :
    { s with results := rest }.handle o = match o.result with
      | .ok region => (s.read o rest).succeed ⟨o.path, region, o.index⟩
      | .error err => (s.read o rest).fail o.index o.path err :=
  rfl

theorem Local.read (h : Local s) : Local (s.read o rest) := ⟨h.1, h.2, h.3, h.4, h.5, h.6, h.7⟩

section

variable (h : Lawful s) (hl : Local s) (hr : s.results = o :: rest)

include h hl hr

theorem Lawful.read : Lawful (s.read o rest) := by
  refine ⟨h.nodup, h.wss, fun o' ho' => ?_, fun f hf => ?_, ?_, h.produced, .inl hl.read⟩
  · exact h.genuine o' (by simp [hr, show o' ∈ rest from ho'])
  · obtain ⟨hp, hmem⟩ := h.fallback f hf
    exact ⟨hp, by simp only [Race.read, List.map_append]; exact List.mem_append_left _ hmem⟩
  · have hfresh := h.fresh
    rw [hr] at hfresh
    simpa [Race.read] using hfresh

omit h hl hr in
theorem Lawful.fits (h : Lawful s) (hr : s.results = o :: rest) (region : String) :
    Fits (s.read o rest) ⟨o.path, region, o.index⟩ where
  wss hp hpath := by
    have hmem := mem_of_pathOf (h.genuine o (by simp [hr]))
    exact h.wss hp (hpath ▸ hmem)
  relay hne hpath := by
    obtain ⟨f, hf⟩ := Option.ne_none_iff_exists'.mp hne
    obtain ⟨hrelay, hmem⟩ := h.fallback f hf
    have hgen := h.genuine o (by simp [hr])
    have hindex : o.index = f.connection := h.pathOf_inj (hgen.trans (congrArg some hpath)) hrelay
    -- A report is read once.
    have hfresh := h.fresh
    rw [List.append_assoc, List.nodup_append] at hfresh
    exact hfresh.2.2 _ hmem o.index (by simp [hr]) hindex.symm

omit h hl hr in
theorem Left.not_none {n : ℕ} (h : Left n s) : s.returned ≠ none := by
  obtain ⟨w, hw⟩ := h.returned
  rw [hw]
  exact nofun

theorem Lawful.placed :
    Placed (s.read o rest) o.carrier ({ s with results := rest }.handle o) ∧
      (Local ({ s with results := rest }.handle o) ∨
        Left (s.read o rest).remaining ({ s with results := rest }.handle o)) := by
  rw [handle_eq, Outcome.carrier]
  split
  next region _ => exact hl.read.succeed (h.fits hr region)
  next => exact (hl.read.fail ..).imp_right .inl

theorem Lawful.handle : Lawful ({ s with results := rest }.handle o) := by
  obtain ⟨hp, hkept⟩ := h.placed hl hr
  refine (h.read hl hr).frame hp.frame (fun f hf => (hp.fallback f hf).imp_right ?_)
    (hkept.imp_right fun hleft => ⟨hleft.not_none, hleft.kept⟩)
  rintro ⟨hc, hrelay⟩
  obtain ⟨hindex, hpath⟩ := Outcome.of_carrier hc
  have hgen := h.genuine o (by simp [hr])
  rw [hindex, ← hrelay, hpath]
  exact ⟨hgen, by simp [Race.read]⟩

theorem tally_handle : ({ s with results := rest }.handle o).tally i = s.tally i := by
  rw [tally_results hr, (h.placed hl hr).1.tally, Outcome.connections_carrier]
  rfl

end

end Read

section

variable (h : Lawful s)

include h

/-- A candidate reports. -/
theorem Lawful.reported {result : Except Err String} {p c : List ℕ} (hi : i ∈ s.running)
    (hpath : s.pathOf i = some path) (hp : p = s.produced ∨ p = s.produced ++ [i]) :
    Lawful { s with
      running := s.running.erase i
      results := s.results ++ [⟨i, path, result⟩]
      produced := p
      closed := c } := by
  have hnodup : s.running.Nodup := (List.nodup_append.mp h.fresh).2.1
  refine ⟨h.nodup, h.wss, fun o ho => ?_, h.fallback, ?_, ?_, ?_⟩
  · rcases List.mem_append.mp ho with ho | ho
    · exact h.genuine o ho
    · obtain rfl := List.mem_singleton.mp ho
      exact hpath
  · have hfresh := h.fresh
    rw [(List.Perm.append_left _ (List.perm_cons_erase hi)).nodup_iff] at hfresh
    simpa using hfresh
  · have hnot : ∀ j ∈ s.produced, j ∉ s.running.erase i :=
      fun j hj hmem => h.produced.2 j hj (List.mem_of_mem_erase hmem)
    rcases hp with rfl | rfl
    · exact ⟨h.produced.1, hnot⟩
    · refine ⟨List.nodup_append.mpr ⟨h.produced.1, List.nodup_singleton i, fun j hj k hk he => ?_⟩,
        fun j hj => ?_⟩
      · obtain rfl := List.mem_singleton.mp hk
        exact h.produced.2 j hj (he ▸ hi)
      · rcases List.mem_append.mp hj with hj | hj
        · exact hnot j hj
        · obtain rfl := List.mem_singleton.mp hj
          exact hnodup.not_mem_erase
  · exact h.kept.imp_left fun hl => ⟨hl.1, hl.2, hl.3, hl.4, hl.5, hl.6, hl.7⟩

/-- The goroutine in the background takes a report out of the channel. -/
theorem Lawful.popped {o : Outcome} {rest : List Outcome} (hr : s.results = o :: rest) :
    Lawful { s with results := rest } := by
  refine { h with genuine := fun o' ho' => ?_, fresh := ?_, kept := ?_ }
  · exact h.genuine o' (by simp [hr, show o' ∈ rest from ho'])
  · refine h.fresh.sublist (List.Sublist.append_right (List.Sublist.append_left ?_ _) _)
    rw [hr]
    exact List.sublist_cons_self ..
  · exact h.kept.imp_left fun hl => ⟨hl.1, hl.2, hl.3, hl.4, hl.5, hl.6, hl.7⟩

omit h in
theorem report_ok {c : Connected} (h : report ctx path c = .ok region) : c.connection.isSome = true := by
  unfold report at h
  dsimp only at h
  split at h
  · cases h
  · cases h
  next hc _ => rw [hc]; rfl

theorem Lawful.local_of_running (hr : s.returned = none) : Local s :=
  h.kept.resolve_right fun hk => hk.1 hr

/-- What is not among the variables of the main loop changes. -/
theorem Lawful.after {done parent : Bool} {begun closed : List ℕ} {ready : List StandbyResult}
    {b : Background} (hb : Local s → b = .returned) :
    Lawful { s with
      ctxDone := done, parentDone := parent, begun := begun, closed := closed
      standbyReady := ready, background := b } :=
  { h with kept := h.kept.imp_left fun hl => { hl with idle := hb hl } }

theorem Lawful.step (hst : s.step a = some t) : Lawful t := by
  cases moved_of_step hst with
  | report hc hi =>
    refine h.reported hi (by simp [pathOf, hc]) ?_
    split
    · exact .inr rfl
    · exact .inl rfl
  | giveUp hc hi => exact h.reported hi (by simp [pathOf, hc]) (.inl rfl)
  | cancelParent | timeout =>
    exact h.after Local.idle
  | awaitDone => exact h.after fun _ => rfl
  | receive hr hres => exact h.handle (h.local_of_running hr) hres
  | prefer hr =>
    obtain ⟨hp, hkept⟩ := (h.local_of_running hr).prefer
    exact h.frame hp.frame (fun f hf => .inl ((hp.fallback f hf).resolve_right nofun))
      (hkept.imp_right fun hleft => ⟨hleft.not_none, hleft.kept⟩)
  | conclude => exact h.frame (frame_conclude s) nofun (.inr ⟨nofun, rfl⟩)
  | @awaitReceive n o rest hb hres =>
    obtain ⟨b, begun, ready, heq, -⟩ := warm_eq { s with results := rest } n o
    rw [heq]
    exact (h.popped hres).after fun hl => absurd (hb.symm.trans hl.idle) nofun
  | @drainReceive n selected o rest hb hres =>
    obtain ⟨closed, heq, -⟩ := discard_eq { s with results := rest } n selected o
    rw [heq]
    exact (h.popped hres).after fun hl => absurd (hb.symm.trans hl.idle) nofun

/-- A connection is in one place if `Connector.Connect` returned it and else in none,
as long as the drain finds no fatal failure. -/
theorem tally_step (ht : ∀ i, s.tally i = s.produced.count i)
    (hd : a = .drainReceive → ∀ o rest, s.results = o :: rest → fatal o = false)
    (hst : s.step a = some t) (i : ℕ) : t.tally i = t.produced.count i := by
  cases moved_of_step hst with
  | @report j ctx c candidate =>
    have hti := ht i
    simp only [tally, unread, kept, handed, List.count_append] at hti
    cases hres : report ctx candidate.path c with
    | ok region =>
      have hsome := report_ok hres
      simp [tally, unread, kept, handed, Outcome.connections, Except.toOption, hsome]
      omega
    | error err =>
      cases hsome : c.connection.isSome
      all_goals
        simp [tally, unread, kept, handed, Outcome.connections, Except.toOption]
        omega
  | giveUp =>
    have hti := ht i
    simpa [tally, unread, kept, handed, Outcome.connections] using hti
  | cancelParent | timeout | awaitDone => exact ht i
  | receive hr hres =>
    have hl := h.local_of_running hr
    rw [tally_handle h hl hres, ht, (h.placed hl hres).1.frame.produced]
    rfl
  | prefer hr =>
    have hp := (h.local_of_running hr).prefer.1
    rw [hp.tally, ht, hp.frame.produced]
    rfl
  | conclude hr =>
    rw [tally_conclude (h.local_of_running hr), ht, (frame_conclude s).produced]
  | @awaitReceive n o rest _ hres =>
    obtain ⟨hproduced, htally⟩ := tally_warm { s with results := rest } n o i
    rw [htally, ← tally_results hres, ht, hproduced]
  | drainReceive _ hres =>
    obtain ⟨hproduced, htally⟩ := tally_discard (hd rfl _ _ hres)
    rw [htally, ← tally_results hres, ht, hproduced]

end

/-! ### Every report is read -/

/-- `awaitWarmFallback` reads on to its last report: it does not return when the context is
done, nor at a fatal failure before the last report. `drainCandidateResults` finds no
fatal failure. -/
def thorough (s : Race) : Action → Bool
  | .awaitDone => false
  | .awaitReceive => !s.results.head?.any fatal || s.background == .await 1
  | .drainReceive => !s.results.head?.any fatal
  | _ => true

def Thorough (s : Race) (a : Action) : Prop := s.thorough a = true

instance (s : Race) (a : Action) : Decidable (Thorough s a) :=
  inferInstanceAs (Decidable (_ = true))

/-- The reports that nobody has read. -/
def leftOver (s : Race) : ℕ := s.running.length + s.results.length

/-- While the main loop runs, it has read the reports that are not left over. -/
def Level (s : Race) : Prop := s.returned = none → s.leftOver + s.completed = s.candidates.length

theorem leftOver_reported (hi : i ∈ s.running) :
    (s.running.erase i).length + (s.results ++ [o]).length = s.leftOver := by
  have hpos := List.length_pos_of_mem hi
  rw [List.length_erase_of_mem hi, List.length_append, List.length_singleton, leftOver]
  omega

theorem Lawful.returned_of_busy (h : Lawful s) (hb : s.background ≠ .returned) : s.returned ≠ none :=
  fun hr => hb (h.local_of_running hr).idle

theorem level_step (h : Level s) (hl : Lawful s) (hst : s.step a = some t) : Level t := by
  intro hnone
  cases moved_of_step hst with
  | report _ hi | giveUp _ hi =>
    exact (congrArg (· + s.completed) (leftOver_reported hi)).trans (h hnone)
  | cancelParent | timeout => exact h hnone
  | @receive o rest hr hres =>
    have hf := (hl.placed (hl.local_of_running hr) hres).1.frame
    have hlevel := h hr
    rw [leftOver, hres, List.length_cons] at hlevel
    rw [leftOver, hf.running, hf.results, hf.completed, hf.candidates]
    simp only [Race.read]
    omega
  | prefer hr =>
    have hf := (hl.local_of_running hr).prefer.1.frame
    rw [leftOver, hf.running, hf.results, hf.completed, hf.candidates]
    exact h hr
  | conclude => cases hnone
  | @awaitReceive n o rest hb =>
    have hr := hl.returned_of_busy (by simp [hb])
    obtain ⟨b, begun, ready, heq, -⟩ := warm_eq { s with results := rest } n o
    rw [heq] at hnone
    exact absurd hnone hr
  | awaitDone hb => exact absurd hnone (hl.returned_of_busy (by simp [hb]))
  | @drainReceive n selected o rest hb =>
    have hr := hl.returned_of_busy (by simp [hb])
    obtain ⟨closed, heq, -⟩ := discard_eq { s with results := rest } n selected o
    rw [heq] at hnone
    exact absurd hnone hr

/-- Once the main loop has returned, the goroutine in the background reads what is left. -/
def Covered (s : Race) : Prop := s.returned ≠ none → s.leftOver = s.background.pending

theorem Left.covered (h : Left n s) (hn : s.leftOver = n) : Covered s := by
  intro _
  rcases h.background with hb | ⟨j, hb⟩
  · rw [hb, Background.pending_awaiting, hn]
  · rw [hb, Background.pending_draining, hn]

theorem covered_handle (h : Level s) (hl : Lawful s) (hr : s.returned = none)
    (hres : s.results = o :: rest) : Covered ({ s with results := rest }.handle o) := by
  obtain ⟨hp, hl' | hleft⟩ := hl.placed (hl.local_of_running hr) hres
  · exact fun hne => absurd hl'.running hne
  · have hlevel := h hr
    rw [leftOver, hres, List.length_cons] at hlevel
    refine hleft.covered ?_
    rw [leftOver, hp.frame.running, hp.frame.results]
    simp only [Race.read, remaining]
    omega

section

variable {o : Outcome} {rest : List Outcome} (h : s.leftOver = s.background.pending) (hres : s.results = o :: rest)

include h hres

theorem pending_pos : 0 < s.background.pending := by
  rw [← h, leftOver, hres, List.length_cons]
  omega

/-- The goroutine in the background has read a report. -/
theorem Covered.popped (hrun : t.running = s.running) (hrest : t.results = rest)
    (hb : t.background.pending + 1 = s.background.pending) : Covered t := by
  intro _
  rw [leftOver, hres, List.length_cons] at h
  rw [leftOver, hrun, hrest]
  omega

end

theorem Covered.step (h : Covered s) (hlevel : Level s) (hl : Lawful s)
    (hok : Thorough s a) (hst : s.step a = some t) : Covered t := by
  cases moved_of_step hst with
  | report _ hi | giveUp _ hi => exact fun hr => (leftOver_reported hi).trans (h hr)
  | cancelParent | timeout => exact h
  | receive hr hres => exact covered_handle hlevel hl hr hres
  | prefer hr =>
    obtain ⟨hp, hl' | hleft⟩ := (hl.local_of_running hr).prefer
    · exact fun hne => absurd hl'.running hne
    · have hcount := hlevel hr
      rw [leftOver] at hcount
      refine hleft.covered ?_
      rw [leftOver, hp.frame.running, hp.frame.results, remaining]
      omega
  | conclude hr hn =>
    intro _
    have hcount := hlevel hr
    have hidle : s.conclude.background = .returned := (hl.local_of_running hr).idle
    rw [hidle]
    change s.leftOver = 0
    omega
  | @awaitReceive n o rest hb hres =>
    have hcov := h (hl.returned_of_busy (by simp [hb]))
    obtain ⟨b, begun, ready, heq, -, rfl | ⟨hfatal, rfl⟩⟩ := warm_eq { s with results := rest } n o
    all_goals
      rw [heq]
      refine .popped hcov hres rfl rfl ?_
    · have hpos := pending_pos hcov hres
      rw [Background.pending_awaiting]
      rw [hb] at hpos ⊢
      exact Nat.sub_add_cancel hpos
    · -- A fatal failure is the last report.
      have hlast : s.background = .await 1 := by simpa [Thorough, thorough, hres, hfatal] using hok
      rw [hlast]
      rfl
  | awaitDone => cases hok
  | @drainReceive n selected o rest hb hres =>
    have hcov := h (hl.returned_of_busy (by simp [hb]))
    obtain ⟨closed, heq, -⟩ := discard_eq { s with results := rest } n selected o
    rw [heq]
    refine .popped hcov hres rfl rfl ?_
    have hpos := pending_pos hcov hres
    rw [Background.pending_draining]
    rw [hb] at hpos ⊢
    exact Nat.sub_add_cancel hpos

/-! ### The race as a whole -/

variable {config : Config} {mode : Mode} {network : NetworkClass} {excluded only : Option Path}
  {cs : List Candidate}

theorem lawful_init (hplan : plan config mode network excluded only = some cs) :
    Lawful (init config mode cs) := by
  have hdirect : preferDirect mode cs = true → mode ≠ .auto ∧ .directQUIC ∈ cs.map (·.path) := by
    intro hp
    simp only [preferDirect, Bool.and_eq_true, decide_eq_true_eq, beq_iff_eq] at hp
    exact ⟨hp.1.1, mem_of_pathOf (s := init config mode cs) hp.1.2⟩
  refine ⟨plan_nodup hplan, fun hp => ?_, nofun, nofun, ?_, ⟨List.nodup_nil, nofun⟩, .inl ?_⟩
  · obtain ⟨hmode, hmem⟩ := hdirect hp
    exact plan_wss hplan hmode hmem
  · exact List.nodup_range
  · exact ⟨rfl, fun hf => absurd rfl hf, nofun, nofun, id, rfl, rfl⟩

theorem level_init : Level (init config mode cs) := by
  simp [Level, leftOver, init]

theorem invariants_of_reach (hplan : plan config mode network excluded only = some cs)
    (h : Reach step Thorough (init config mode cs) s) :
    Lawful s ∧ (∀ i, s.tally i = s.produced.count i) ∧ Level s ∧ Covered s := by
  induction h with
  | refl => exact ⟨lawful_init hplan, fun _ => rfl, level_init, fun hr => absurd rfl hr⟩
  | @tail x y a _ hok hst ih =>
    obtain ⟨hl, ht, hlevel, hc⟩ := ih
    refine ⟨hl.step hst, tally_step hl ht (fun ha o rest hres => ?_) hst,
      level_step hlevel hl hst, hc.step hlevel hl hok hst⟩
    subst ha
    simpa [Thorough, thorough, hres] using hok

/-- `connect` has returned and all its goroutines have. -/
structure AtRest (s : Race) : Prop where
  returned : s.returned ≠ none
  running : s.running = []
  background : s.background = .returned

/-- Every connection is closed or handed to the caller, once, and no report is unread. -/
structure Owned (s : Race) : Prop where
  read : s.results = []
  once : ∀ i ∈ s.produced, s.closed.count i + s.handed.count i = 1

/-- A race that reads every report leaves no connection without an owner, and none with
two. -/
theorem race_ownership (hplan : plan config mode network excluded only = some cs)
    (h : Reach step Thorough (init config mode cs) s) (hrest : AtRest s) : Owned s := by
  obtain ⟨hl, ht, -, hc⟩ := invariants_of_reach hplan h
  have hover : s.leftOver = 0 := by
    rw [hc hrest.returned, hrest.background]
    rfl
  have hread : s.results = [] := List.eq_nil_of_length_eq_zero (by rw [leftOver] at hover; omega)
  have hkept : s.kept = [] :=
    (hl.kept.resolve_left fun hloc => hrest.returned hloc.running).2
  refine ⟨hread, fun i hi => ?_⟩
  have hti := ht i
  rw [List.count_eq_one_of_mem hl.produced.1 hi, tally, unread, hread, hkept] at hti
  simpa using hti

namespace Demo

def paths : List Candidate := [{ path := .directQUIC }, { path := .relayQUIC }, { path := .wss }]

theorem plan_paths : plan {} .auto .unknown none none = some paths := by decide

def trusted : Connected := { connection := some { state := .trusted } }

def refused : Connected := { connection := none, err := some { failure := some .authentication } }

def unreachable : Connected := { connection := none, err := some { failure := some .reachability } }

/-- The relay wins, the direct path is refused, and then WSS connects. -/
def leaking : List Action :=
  [.report 1 {} trusted, .receive, .report 0 {} refused, .awaitReceive, .report 2 {} trusted]

theorem leaking_run :
    ((run step (init {} .auto paths) leaking).map fun s =>
      (s.returned.isSome, s.running, s.background, s.results.map (·.index))) =
      some (true, [], .returned, [2]) := by
  decide +kernel

/-- Nobody reads the report of WSS, and its connection stays open. -/
theorem race_leaks_connection :
    ¬ ∀ (config : Config) (mode : Mode) (network : NetworkClass) (excluded only : Option Path)
      (cs : List Candidate) (s : Race), plan config mode network excluded only = some cs →
      Reach step Always (init config mode cs) s → AtRest s → Owned s := by
  intro hall
  obtain ⟨s, hrun, hs⟩ := Option.map_eq_some_iff.mp leaking_run
  simp only [Prod.mk.injEq] at hs
  obtain ⟨hret, hrunning, hback, hres⟩ := hs
  have howned := hall _ _ _ _ _ _ s plan_paths (reach_of_run _ hrun)
    ⟨by intro h; simp [h] at hret, hrunning, hback⟩
  rw [howned.read] at hres
  cases hres

/-- The relay wins, the direct path cannot be reached, and WSS becomes the standby. -/
def warming : List Action :=
  [.report 1 {} trusted, .receive, .report 0 {} unreachable, .awaitReceive, .report 2 {} trusted,
    .awaitReceive]

theorem warming_run :
    ((runChecked step Thorough (init {} .auto paths) warming).map fun s =>
      (s.returned.isSome, s.running, s.background, s.produced)) =
      some (true, [], .returned, [1, 2]) := by
  decide +kernel

theorem race_ownership_warming :
    ∃ s, Reach step Thorough (init {} .auto paths) s ∧ s.produced = [1, 2] ∧ Owned s := by
  obtain ⟨s, hrun, hs⟩ := Option.map_eq_some_iff.mp warming_run
  simp only [Prod.mk.injEq] at hs
  obtain ⟨hret, hrunning, hback, hproduced⟩ := hs
  have hreach := reach_of_runChecked _ hrun
  exact ⟨s, hreach, hproduced, race_ownership plan_paths hreach
    ⟨by intro h; simp [h] at hret, hrunning, hback⟩⟩

end Demo

end Race

end Paperboat.ConnectionManager
