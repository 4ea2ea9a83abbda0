import Mathlib

/-! The search for the path MTU. `Measure` probes the smallest payload and then halves the window of
the larger ones; `validate` allows for its probes by halving the width of the range. Sizes are `uint16`
and the bounds of the window `uint32`. A prober is given by its answers, so that it may lose probes and
carry a size at one time and not at another. -/

namespace Paperboat.NetworkAdaptation

structure PMTUPolicy where
  minimumPayload : ℕ
  maximumPayload : ℕ
  successesPerSize : ℕ
  probeTimeout : Int
  totalTimeout : Int
  cacheTTL : Int
  maximumPaths : ℕ
  /-- The sizes are 16 bits. -/
  maximum_lt : maximumPayload < 2 ^ 16

/-- How often the loop of `validate` halves a width. -/
def halvings (width : ℕ) : ℕ := if width = 0 then 0 else halvings (width / 2) + 1

theorem lt_two_pow_halvings (width : ℕ) : width < 2 ^ halvings width := by
  fun_induction halvings width with
  | case1 => simp
  | case2 width _ ih => rw [Nat.pow_succ]; omega

namespace PMTUPolicy

variable (p : PMTUPolicy)

def rounds : ℕ := 1 + halvings (p.maximumPayload - p.minimumPayload)

def maximumAttempts : ℕ := p.rounds * p.successesPerSize

/-- `validate` returns no error. -/
def Valid : Prop :=
  ¬ (p.minimumPayload < 1200 ∨ p.maximumPayload < p.minimumPayload ∨ p.successesPerSize < 3 ∨
    p.successesPerSize > 16 ∨ p.probeTimeout ≤ 0 ∨ p.totalTimeout ≤ 0 ∨ p.cacheTTL ≤ 0 ∨ p.maximumPaths < 1 ∨ p.maximumPaths > 4096) ∧
  ¬ (p.maximumAttempts > (2 ^ 63 - 1) / p.probeTimeout ∨ p.maximumAttempts * p.probeTimeout > p.totalTimeout)

end PMTUPolicy

/-- What a probe brings: an error of the probe or of the measurement's context, or a result. -/
inductive Answer where
  | error
  | result (supported : Bool) (time : ℕ)

/-- The answer to the probe with a number, of a size. -/
abbrev Prober := ℕ → ℕ → Answer

/-- The sizes of all probes sent are kept, `Attempts` is their number; the last time is also `previous`. -/
structure PMTUMeasurement where
  complete : Bool := false
  eligible : Bool := false
  packetSize : ℕ := 0
  sizes : List ℕ := []
  observedAt : ℕ := 0

namespace PMTUMeasurement

def attempts (m : PMTUMeasurement) : ℕ := m.sizes.length

/-- After `n` more probes of a size, with the time of the last answer. -/
def probed (m : PMTUMeasurement) (n size time : ℕ) : PMTUMeasurement :=
  { m with sizes := m.sizes ++ List.replicate n size, observedAt := time }

@[simp] theorem attempts_probed (m : PMTUMeasurement) (n size time : ℕ) :
    (m.probed n size time).attempts = m.attempts + n := by
  simp [attempts, probed]

@[simp] theorem observedAt_probed (m : PMTUMeasurement) (n size time : ℕ) :
    (m.probed n size time).observedAt = time := rfl

end PMTUMeasurement

section

variable (prober : Prober)

/-- The rest of the probes of a size; `none` is an error. -/
def probe (size : ℕ) : ℕ → PMTUMeasurement → PMTUMeasurement × Option Bool
  | 0, m => (m, some true)
  | k + 1, m =>
    match prober m.attempts size with
    | .error => (m.probed 1 size m.observedAt, none)
    | .result supported time =>
      if time = 0 ∨ m.observedAt ≠ 0 ∧ time ≤ m.observedAt then (m.probed 1 size m.observedAt, none)
      else if supported then probe size k (m.probed 1 size time)
      else (m.probed 1 size time, some false)

/-- The loop over the window, with the measurement and whether there was no error. -/
def search (k : ℕ) : ℕ → ℕ → ℕ → PMTUMeasurement → Option (PMTUMeasurement × Bool)
  | 0, _, _, _ => none
  | fuel + 1, low, high, m =>
    if low ≤ high then
      let candidate := (low + (high - low) / 2) % 2 ^ 16
      match probe prober candidate k m with
      | (m, none) => some (m, false)
      | (m, some true) => search k fuel ((candidate + 1) % 2 ^ 32) high { m with packetSize := candidate }
      | (m, some false) => search k fuel low ((candidate + 2 ^ 32 - 1) % 2 ^ 32) m
    else some ({ m with complete := true }, true)

def measure (p : PMTUPolicy) (fuel : ℕ) : Option (PMTUMeasurement × Bool) :=
  match probe prober p.minimumPayload p.successesPerSize {} with
  | (m, none) => some (m, false)
  | (m, some false) => some ({ m with complete := true }, true)
  | (m, some true) =>
    search prober p.successesPerSize fuel ((p.minimumPayload + 1) % 2 ^ 32) p.maximumPayload
      { m with eligible := true, packetSize := p.minimumPayload }

/-- `k` probes in a row were of the size, and the prober carried each of them. -/
def Carried (k size : ℕ) (sizes : List ℕ) : Prop :=
  ∃ n, ∀ i < k, sizes[n + i]? = some size ∧ ∃ time, prober (n + i) size = .result true time

/-- A path that carries a probe exactly if its size is at most `limit`, with its answers in order of time. -/
structure Path (limit : ℕ) (clock : ℕ → ℕ) : Prop where
  carries : ∀ n size, prober n size = .result (decide (size ≤ limit)) (clock n)
  first : 0 < clock 0
  later : ∀ n, clock n < clock (n + 1)

/-- The reported size is in the range and was carried by all its probes; no probe left the range. -/
structure Sound (p : PMTUPolicy) (m : PMTUMeasurement) : Prop where
  eligible : m.eligible = true
  range : p.minimumPayload ≤ m.packetSize ∧ m.packetSize ≤ p.maximumPayload
  carried : Carried prober p.successesPerSize m.packetSize m.sizes
  sizes : ∀ size ∈ m.sizes, p.minimumPayload ≤ size ∧ size ≤ p.maximumPayload

end

variable {prober : Prober} {p : PMTUPolicy} {m : PMTUMeasurement}

/-! ### The probes of one size -/

/-- At most `k` probes are sent, and where the size is supported all `k` of them were carried. -/
theorem probe_spec (size k : ℕ) (m : PMTUMeasurement) :
    ∃ n time, (probe prober size k m).1 = m.probed n size time ∧ n ≤ k ∧ ((probe prober size k m).2 = some true →
      n = k ∧ ∀ i < k, ∃ time, prober (m.attempts + i) size = .result true time) := by
  induction k generalizing m with
  | zero => exact ⟨0, m.observedAt, by simp [probe, PMTUMeasurement.probed]⟩
  | succ k ih =>
    rw [probe]
    split
    · exact ⟨1, m.observedAt, rfl, by simp⟩
    next supported time hanswer =>
    split_ifs with htime hsupported
    · exact ⟨1, m.observedAt, rfl, by simp⟩
    · subst hsupported
      obtain ⟨n, last, hm, hle, hall⟩ := ih (m.probed 1 size time)
      refine ⟨n + 1, last, hm.trans ?_, by omega, fun h => ⟨congrArg (· + 1) (hall h).1, ?_⟩⟩
      · simp [PMTUMeasurement.probed, List.replicate_succ]
      · rintro (_ | i) hi
        · exact ⟨time, hanswer⟩
        · have := (hall h).2 i (by omega)
          simpa [Nat.add_assoc, Nat.add_comm 1] using this
    · exact ⟨1, time, rfl, by simp⟩

/-- On a path the probes of a size are answered by the limit. -/
theorem probe_path (h : Path prober limit clock) (size k : ℕ) (m : PMTUMeasurement)
    (hm : m.observedAt < clock m.attempts) :
    (probe prober size k m).2 = some (decide (size ≤ limit ∨ k = 0)) ∧
      (probe prober size k m).1.observedAt < clock (probe prober size k m).1.attempts := by
  induction k generalizing m with
  | zero => simpa [probe] using hm
  | succ k ih =>
    have hlater : clock m.attempts < clock (m.attempts + 1) := h.later m.attempts
    have htime : ¬ (clock m.attempts = 0 ∨ m.observedAt ≠ 0 ∧ clock m.attempts ≤ m.observedAt) := by omega
    by_cases hsize : size ≤ limit
    · have hrest := ih (m.probed 1 size (clock m.attempts)) (by simpa using hlater)
      simpa [probe, h.carries, htime, hsize] using hrest
    · simpa [probe, h.carries, htime, hsize] using hlater

theorem Carried.append (h : Carried prober k size sizes) (more : List ℕ) : Carried prober k size (sizes ++ more) := by
  obtain ⟨n, hn⟩ := h
  refine ⟨n, fun i hi => ⟨?_, (hn i hi).2⟩⟩
  obtain ⟨hlt, -⟩ := List.getElem?_eq_some_iff.mp (hn i hi).1
  rw [List.getElem?_append_left hlt]
  exact (hn i hi).1

theorem carried_probed (time : ℕ) (hall : ∀ i < k, ∃ time, prober (m.attempts + i) size = .result true time) :
    Carried prober k size (m.probed k size time).sizes := by
  refine ⟨m.attempts, fun i hi => ⟨?_, hall i hi⟩⟩
  simp [PMTUMeasurement.probed, PMTUMeasurement.attempts, hi]

/-- More probes in the range leave what is reported sound. -/
theorem Sound.probed (hm : Sound prober p m) (hsize : p.minimumPayload ≤ size ∧ size ≤ p.maximumPayload)
    (n time : ℕ) : Sound prober p (m.probed n size time) where
  eligible := hm.eligible
  range := hm.range
  carried := hm.carried.append _
  sizes := by
    intro s hs
    rcases List.mem_append.mp hs with hs | hs
    · exact hm.sizes s hs
    · exact List.eq_of_mem_replicate hs ▸ hsize

/-! ### The window -/

/-- The middle of the window above the reported size. -/
def middle (m : PMTUMeasurement) (high : ℕ) : ℕ := m.packetSize + 1 + (high - (m.packetSize + 1)) / 2

/-- The search from the window above the reported size takes at most `n` rounds. On a path whose largest
size is in the window it ends there. -/
def Finds (prober : Prober) (p : PMTUPolicy) (n fuel high : ℕ) (m : PMTUMeasurement) : Prop :=
  ∃ r ok, search prober p.successesPerSize fuel (m.packetSize + 1) high m = some (r, ok) ∧ Sound prober p r ∧
    r.attempts ≤ m.attempts + n * p.successesPerSize ∧
    ∀ limit clock, Path prober limit clock → m.observedAt < clock m.attempts → m.packetSize ≤ limit →
      min p.maximumPayload limit ≤ high →
      ok = true ∧ r.complete = true ∧ r.packetSize = min p.maximumPayload limit

/-- No size wraps around: the candidate is the middle of the window. -/
theorem search_open (hopen : m.packetSize < high) (hhigh : high ≤ p.maximumPayload) :
    search prober k (fuel + 1) (m.packetSize + 1) high m =
    match probe prober (middle m high) k m with
    | (m, none) => some (m, false)
    | (m', some true) => search prober k fuel (middle m high + 1) high { m' with packetSize := middle m high }
    | (m', some false) => search prober k fuel (m.packetSize + 1) (middle m high - 1) m' := by
  have hmax := p.maximum_lt
  have hmiddle : middle m high ≤ high := by rw [middle]; omega
  have hcandidate : (m.packetSize + 1 + (high - (m.packetSize + 1)) / 2) % 2 ^ 16 = middle m high :=
    Nat.mod_eq_of_lt (by change middle m high < _; omega)
  have hlow : (middle m high + 1) % 2 ^ 32 = middle m high + 1 := Nat.mod_eq_of_lt (by omega)
  have hbelow : (middle m high + 2 ^ 32 - 1) % 2 ^ 32 = middle m high - 1 := by rw [middle] at *; omega
  rw [search, if_pos (by omega)]
  simp only [hcandidate, hlow, hbelow]

theorem finds_closed (hm : Sound prober p m) (hclosed : high ≤ m.packetSize) : Finds prober p n (fuel + 1) high m := by
  have hrange := hm.range
  refine ⟨{ m with complete := true }, true, ?_, ⟨hm.eligible, hm.range, hm.carried, hm.sizes⟩, ?_, ?_⟩
  · rw [search, if_neg (by omega)]
  · exact Nat.le_add_right _ _
  · intro limit clock _ _ hle hbest
    exact ⟨rfl, rfl, by dsimp only; omega⟩

/-- One round: the probes of the middle end the search or halve the window. -/
theorem finds_round (hm : Sound prober p m) (hopen : m.packetSize < high) (hhigh : high ≤ p.maximumPayload)
    (hk : 0 < p.successesPerSize) (hwidth : high - m.packetSize < 2 ^ (n + 1))
    (ih : ∀ high' (m' : PMTUMeasurement), Sound prober p m' → high' ≤ p.maximumPayload →
      high' - m'.packetSize < 2 ^ n → Finds prober p n fuel high' m') :
    Finds prober p (n + 1) (fuel + 1) high m := by
  have hrange := hm.range
  have hmiddle : m.packetSize < middle m high ∧ middle m high ≤ high ∧
      high - middle m high < 2 ^ n ∧ middle m high - 1 - m.packetSize < 2 ^ n := by
    rw [Nat.pow_succ] at hwidth
    rw [middle]
    omega
  have hin : p.minimumPayload ≤ middle m high ∧ middle m high ≤ p.maximumPayload := by omega
  obtain ⟨sent, time, hprobe, hsent, hall⟩ := @probe_spec prober (middle m high) p.successesPerSize m
  have hpath := fun limit clock (h : Path prober limit clock) => probe_path h (middle m high) p.successesPerSize m
  have hsound := hm.probed hin sent time
  have hcount : (m.probed sent (middle m high) time).attempts ≤ m.attempts + p.successesPerSize := by
    rw [PMTUMeasurement.attempts_probed]
    omega
  rw [Finds, search_open hopen hhigh, Nat.add_mul, Nat.one_mul]
  generalize probe prober (middle m high) p.successesPerSize m = out at *
  obtain ⟨after, answer⟩ := out
  obtain rfl : after = _ := hprobe
  match answer with
  | none =>
    refine ⟨_, false, rfl, hsound, by omega, ?_⟩
    intro limit clock h htime _ _
    simpa using (hpath limit clock h htime).1
  | some true =>
    obtain ⟨rfl, hcarried⟩ := hall rfl
    obtain ⟨r, ok, hr, hs, hn, hbest⟩ := ih high { m.probed _ (middle m high) time with packetSize := middle m high }
      ⟨hm.eligible, hin, carried_probed time hcarried, hsound.sizes⟩ hhigh hmiddle.2.2.1
    refine ⟨r, ok, hr, hs, Nat.le_trans hn (Nat.le_trans (Nat.add_le_add_right hcount _) (by omega)), ?_⟩
    intro limit clock h htime hle hwindow
    obtain ⟨hanswer, hnext⟩ := hpath limit clock h htime
    have hle : middle m high ≤ limit := by simp at hanswer; omega
    exact hbest limit clock h hnext hle hwindow
  | some false =>
    obtain ⟨r, ok, hr, hs, hn, hbest⟩ := ih (middle m high - 1) (m.probed sent (middle m high) time) hsound
      (by omega) hmiddle.2.2.2
    refine ⟨r, ok, hr, hs, by omega, ?_⟩
    intro limit clock h htime hle hwindow
    obtain ⟨hanswer, hnext⟩ := hpath limit clock h htime
    exact hbest limit clock h hnext hle (by simp at hanswer; omega)

/-- A window of fewer than `2 ^ n` sizes takes at most `n` rounds. -/
theorem search_finds (hk : 0 < p.successesPerSize) (n fuel high : ℕ) (m : PMTUMeasurement) (hm : Sound prober p m)
    (hhigh : high ≤ p.maximumPayload) (hwidth : high - m.packetSize < 2 ^ n) (hfuel : n < fuel) :
    Finds prober p n fuel high m := by
  induction n generalizing fuel high m with
  | zero =>
    obtain ⟨fuel, rfl⟩ : ∃ f, fuel = f + 1 := ⟨fuel - 1, by omega⟩
    exact finds_closed hm (by omega)
  | succ n ih =>
    obtain ⟨fuel, rfl⟩ : ∃ f, fuel = f + 1 := ⟨fuel - 1, by omega⟩
    rcases Nat.lt_or_ge m.packetSize high with hopen | hclosed
    · exact finds_round hm hopen hhigh hk hwidth fun high' m' hm' hh hw => ih fuel high' m' hm' hh hw (by omega)
    · exact finds_closed hm hclosed

/-! ### The measurement -/

/-- The probes that `validate` allows for fit into the total timeout. -/
theorem PMTUPolicy.Valid.in_time (hp : p.Valid) (hn : n ≤ p.maximumAttempts) : n * p.probeTimeout ≤ p.totalTimeout := by
  obtain ⟨hfields, hbudget⟩ := hp
  have hle : (n : Int) * p.probeTimeout ≤ p.maximumAttempts * p.probeTimeout :=
    Int.mul_le_mul_of_nonneg_right (by omega) (by omega)
  omega

/-- `Measure` ends within the probes that `validate` allows for. What it reports was carried by every
probe of its size, whatever the prober does; on a path it is the largest size of the range. -/
theorem measure_finds_largest (hp : p.Valid) (hfuel : p.rounds ≤ fuel) :
    ∃ r ok, measure prober p fuel = some (r, ok) ∧ r.attempts ≤ p.maximumAttempts ∧
      r.attempts * p.probeTimeout ≤ p.totalTimeout ∧
      (∀ size ∈ r.sizes, p.minimumPayload ≤ size ∧ size ≤ p.maximumPayload) ∧
      (r.eligible = true → Sound prober p r) ∧ (r.eligible = false → r.packetSize = 0) ∧
      ∀ limit clock, Path prober limit clock → ok = true ∧ r.complete = true ∧
        (r.eligible = true ↔ p.minimumPayload ≤ limit) ∧
        (r.eligible = true → r.packetSize = min p.maximumPayload limit) := by
  have hfields := hp.1
  have hmax := p.maximum_lt
  obtain ⟨sent, time, hprobe, hsent, hall⟩ := @probe_spec prober p.minimumPayload p.successesPerSize {}
  have hpath := fun limit clock (h : Path prober limit clock) =>
    probe_path h p.minimumPayload p.successesPerSize {} h.first
  have hsizes : ∀ size ∈ List.replicate sent p.minimumPayload,
      p.minimumPayload ≤ size ∧ size ≤ p.maximumPayload := by
    intro size hs
    have := List.eq_of_mem_replicate hs
    omega
  have hfirst : (PMTUMeasurement.probed {} sent p.minimumPayload time).attempts ≤ p.maximumAttempts := by
    have : p.successesPerSize ≤ p.maximumAttempts := Nat.le_mul_of_pos_left _ (by rw [PMTUPolicy.rounds]; omega)
    rw [PMTUMeasurement.attempts_probed]
    simp only [PMTUMeasurement.attempts, List.length_nil]
    omega
  unfold measure
  generalize probe prober p.minimumPayload p.successesPerSize {} = out at *
  obtain ⟨after, answer⟩ := out
  obtain rfl : after = _ := hprobe
  match answer with
  | none =>
    refine ⟨_, _, rfl, hfirst, hp.in_time hfirst, hsizes, by simp [PMTUMeasurement.probed], fun _ => rfl, ?_⟩
    intro limit clock h
    simpa using (hpath limit clock h).1
  | some false =>
    refine ⟨_, _, rfl, hfirst, hp.in_time hfirst, hsizes, by simp [PMTUMeasurement.probed], fun _ => rfl, ?_⟩
    intro limit clock h
    have hanswer := (hpath limit clock h).1
    simp_all [PMTUMeasurement.probed]
  | some true =>
    obtain ⟨rfl, hcarried⟩ := hall rfl
    have hwidth := lt_two_pow_halvings (p.maximumPayload - p.minimumPayload)
    have hlow : (p.minimumPayload + 1) % 2 ^ 32 = p.minimumPayload + 1 := Nat.mod_eq_of_lt (by omega)
    obtain ⟨r, ok, hr, hs, hn, hbest⟩ := search_finds (by omega) _ fuel p.maximumPayload
      { PMTUMeasurement.probed {} _ p.minimumPayload time with eligible := true, packetSize := p.minimumPayload }
      ⟨rfl, by dsimp only; omega, carried_probed time hcarried, hsizes⟩ (Nat.le_refl _)
      hwidth (by rw [PMTUPolicy.rounds] at hfuel; omega)
    have hattempts : r.attempts ≤ p.maximumAttempts := by
      rw [PMTUPolicy.maximumAttempts, PMTUPolicy.rounds, Nat.add_mul, Nat.one_mul]
      refine Nat.le_trans hn (Nat.add_le_add_right ?_ _)
      simp [PMTUMeasurement.attempts, PMTUMeasurement.probed]
    refine ⟨r, ok, by rw [← hr, hlow], hattempts, hp.in_time hattempts, hs.sizes, fun _ => hs, ?_, ?_⟩
    · simp [hs.eligible]
    intro limit clock h
    obtain ⟨hanswer, htime⟩ := hpath limit clock h
    have hle : p.minimumPayload ≤ limit := by simp at hanswer; omega
    obtain ⟨hok, hcomplete, hsize⟩ := hbest limit clock h htime hle (by omega)
    exact ⟨hok, hcomplete, by simp [hs.eligible, hle], fun _ => hsize⟩

def DevelopmentPMTUPolicy : PMTUPolicy where
  minimumPayload := 1200
  maximumPayload := 1452
  successesPerSize := 3
  probeTimeout := 10 ^ 9
  totalTimeout := 30 * 10 ^ 9
  cacheTTL := 300 * 10 ^ 9
  maximumPaths := 256
  maximum_lt := by decide

/-- The development policy on a path that carries 1400 bytes. -/
theorem development_finds_1400 :
    ∃ r ok, measure (fun n size => .result (decide (size ≤ 1400)) (n + 1)) DevelopmentPMTUPolicy 9 = some (r, ok) ∧
      r.packetSize = 1400 := by
  have hrounds : DevelopmentPMTUPolicy.rounds = 9 := by simp [PMTUPolicy.rounds, DevelopmentPMTUPolicy, halvings]
  have hvalid : DevelopmentPMTUPolicy.Valid := by
    rw [PMTUPolicy.Valid, PMTUPolicy.maximumAttempts, hrounds]
    decide
  obtain ⟨r, ok, hr, -, -, -, -, -, hpath⟩ := measure_finds_largest hvalid (Nat.le_of_eq hrounds)
  obtain ⟨-, -, helig, hsize⟩ := hpath 1400 (· + 1) ⟨fun _ _ => rfl, by decide, fun _ => Nat.lt_succ_self _⟩
  exact ⟨r, ok, hr, hsize (helig.mpr (by decide))⟩

end Paperboat.NetworkAdaptation
