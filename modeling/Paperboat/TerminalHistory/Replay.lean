import Paperboat.TerminalHistory.Window

/-! Replay cuts the retained events at both ends. What it returns is the stream from the
requested sequence number on, as far as the byte limit allows, and asking again from
where it stopped gives the rest. -/

namespace Paperboat.TerminalHistory

open Transition

theorem Slice.slice_val (s : Slice) (i j : UInt64) : (s.slice i j).val = segment s.val i.toNat j.toNat :=
  rfl

/-- What a limit leaves of the bytes that are still to come. -/
def budget (byteLimit remaining : UInt64) (xs : List UInt8) : List UInt8 :=
  if byteLimit = 0 then xs else xs.take remaining.toNat

theorem budget_prefix (byteLimit remaining : UInt64) (xs : List UInt8) :
    budget byteLimit remaining xs <+: xs := by
  rw [budget]
  split
  · exact List.prefix_rfl
  · exact List.take_prefix ..

/-- `r'` is `r` with events for `xs` added. -/
structure Replay.Extended (r r' : Replay) (xs : List UInt8) : Prop where
  bounds : r'.fromSequence = r.fromSequence ∧ r'.earliestSequence = r.earliestSequence ∧
    r'.latestSequence = r.latestSequence
  contiguous : Contiguous r.fromSequence.toNat r'.events r'.toSequence.toNat
  content : content r'.events = content r.events ++ xs

section Loop

variable {f byteLimit remaining : UInt64} {a b : ℕ} {e : Event} {es : List Event} {r : Replay}

variable {start : UInt64}

section

variable (hr : Contiguous r.fromSequence.toNat r.events start.toNat)
  (hstart : e.startSequence.toNat = a) (hend : e.endSequence.toNat = a + e.data.val.length)

include hr hstart hend

/-- The part of an event from `start` to `stop`. -/
theorem extended_part {stop : UInt64} (ha : a ≤ start.toNat) (hle : start.toNat ≤ stop.toNat)
    (hstop : stop.toNat ≤ a + e.data.val.length) :
    r.Extended (r.add (e.part start stop))
      (segment e.data.val (start.toNat - a) (stop.toNat - a)) := by
  have hoffset : ∀ s : UInt64, a ≤ s.toNat → (s - e.startSequence).toNat = s.toNat - a := by
    intro s hs
    rw [UInt64.toNat_sub_of_le _ _ (UInt64.le_iff_toNat_le.mpr (hstart ▸ hs)), hstart]
  have hdata : (e.data.slice (start - e.startSequence) (stop - e.startSequence)).val =
      segment e.data.val (start.toNat - a) (stop.toNat - a) := by
    rw [Slice.slice_val, hoffset start ha, hoffset stop (ha.trans hle)]
  refine ⟨⟨rfl, rfl, rfl⟩, hr.append ⟨rfl, ?_, rfl⟩, ?_⟩
  · show stop.toNat = start.toNat + _
    rw [Event.part, hdata, segment_length (by omega)]
    omega
  · rw [Replay.add, content_append, content_cons, content_nil, List.append_nil, Event.part, hdata]

omit hr hstart hend in
theorem Replay.Extended.trans {r₁ r₂ r₃ : Replay} (h : r₁.Extended r₂ xs)
    (h' : r₂.Extended r₃ ys) : r₁.Extended r₃ (xs ++ ys) where
  bounds := ⟨h'.bounds.1.trans h.bounds.1, h'.bounds.2.1.trans h.bounds.2.1,
    h'.bounds.2.2.trans h.bounds.2.2⟩
  contiguous := h.bounds.1 ▸ h'.contiguous
  content := by rw [h'.content, h.content, List.append_assoc]

omit hr hstart hend in
/-- The budget ends inside the event. -/
theorem extended_truncated (xs : List UInt8)
    (hr : Contiguous r.fromSequence.toNat r.events start.toNat)
    (hstart : e.startSequence.toNat = a) (hend : e.endSequence.toNat = a + e.data.val.length)
    (hs : start.toNat = max f.toNat a)
    (hover : remaining.toNat < a + e.data.val.length - max f.toNat a) :
    (start + remaining).toNat = start.toNat + remaining.toNat ∧
      r.Extended (r.add (e.part start (start + remaining)))
        ((e.data.val.drop (f.toNat - a) ++ xs).take remaining.toNat) := by
  have hstop : (start + remaining).toNat = start.toNat + remaining.toNat := by
    have := e.endSequence.toNat_lt
    rw [UInt64.toNat_add, Nat.mod_eq_of_lt (by omega)]
  refine ⟨hstop, ?_⟩
  have hcut : (e.data.val.drop (f.toNat - a) ++ xs).take remaining.toNat =
      segment e.data.val (start.toNat - a) ((start + remaining).toNat - a) := by
    rw [List.take_append_of_le_length (by rw [List.length_drop]; omega), take_drop_eq_segment]
    congr 1 <;> omega
  rw [hcut]
  exact extended_part hr hstart hend (by omega) (by omega) (by omega)

/-- The event is taken to its end. -/
theorem extended_whole (hs : start.toNat = max f.toNat a) (hlt : f.toNat < a + e.data.val.length) :
    r.Extended (r.add (e.part start e.endSequence)) (e.data.val.drop (f.toNat - a)) := by
  have hcut : e.data.val.drop (f.toNat - a) =
      segment e.data.val (start.toNat - a) (e.endSequence.toNat - a) := by
    rw [← segment_end]
    congr 1 <;> omega
  rw [hcut]
  exact extended_part hr hstart hend (by omega) (by omega) (by omega)

end

/-- The loop over the events from `a` on. Its cursor is at `f`, or at `a` if that is
further on. -/
theorem replayLoop_spec (hes : Contiguous a es b) (hf : r.fromSequence = f)
    (hr : Contiguous r.fromSequence.toNat r.events r.toSequence.toNat)
    (hto : r.toSequence.toNat = max f.toNat a) (hrem : byteLimit ≠ 0 → 0 < remaining.toNat) :
    r.Extended (History.replayLoop f byteLimit es remaining r)
      (budget byteLimit remaining ((content es).drop (f.toNat - a))) := by
  induction es generalizing a remaining r with
  | nil =>
    refine ⟨⟨rfl, rfl, rfl⟩, hr, ?_⟩
    simp [History.replayLoop, budget]
  | cons e es ih =>
    obtain ⟨hstart, hend, hrest⟩ := hes
    rw [History.replayLoop]
    split
    next hskip =>
      -- The event ends before the cursor.
      have hle : a + e.data.val.length ≤ f.toNat := hend ▸ UInt64.le_iff_toNat_le.mp hskip
      have hdrop : (content (e :: es)).drop (f.toNat - a) =
          (content es).drop (f.toNat - e.endSequence.toNat) := by
        rw [content_cons, List.drop_append, List.drop_eq_nil_of_le (by omega), List.nil_append,
          hend, Nat.sub_sub]
      rw [hdrop]
      exact ih hrest hf hr (by omega) hrem
    next hlive =>
      have hlt : f.toNat < a + e.data.val.length :=
        hend ▸ UInt64.lt_iff_toNat_lt.mp (UInt64.not_le.mp hlive)
      have hs : (max f e.startSequence).toNat = max f.toNat a := by rw [UInt64.toNat_max, hstart]
      generalize max f e.startSequence = start at hs
      have hspan : (e.endSequence - start).toNat = a + e.data.val.length - max f.toNat a := by
        rw [UInt64.toNat_sub_of_le _ _ (UInt64.le_iff_toNat_le.mpr (by omega)), hend, hs]
      have hcut : (content (e :: es)).drop (f.toNat - a) =
          e.data.val.drop (f.toNat - a) ++ content es := by
        rw [content_cons, List.drop_append_of_le_length (by omega)]
      have hzero : f.toNat - e.endSequence.toNat = 0 := by omega
      rw [hto, ← hs] at hr
      by_cases htrunc : 0 < byteLimit ∧ remaining < e.endSequence - start
      · obtain ⟨hlimit, hover⟩ := htrunc
        have hne : byteLimit ≠ 0 := UInt64.pos_iff_ne_zero.mp hlimit
        have hpos := hrem hne
        obtain ⟨hstop, hpart⟩ := extended_truncated (content es) hr hstart hend hs
          (hspan ▸ UInt64.lt_iff_toNat_lt.mp hover)
        have hsome : start < start + remaining := UInt64.lt_iff_toNat_lt.mpr (by omega)
        have hdone : remaining - (start + remaining - start) = 0 := by
          rw [UInt64.add_comm start, UInt64.add_sub_cancel, UInt64.sub_self]
        simp only [hlimit, hover, and_self, if_true, hsome, hdone, budget, if_neg hne, hcut]
        exact hpart
      · simp only [if_neg htrunc]
        have hpart := extended_whole hr hstart hend hs hlt
        have hmax : e.endSequence.toNat = max f.toNat e.endSequence.toNat := by omega
        by_cases hsome : start < e.endSequence
        · simp only [if_pos hsome]
          by_cases hlimit : 0 < byteLimit
          · have hne : byteLimit ≠ 0 := UInt64.pos_iff_ne_zero.mp hlimit
            have hfits : e.endSequence - start ≤ remaining :=
              UInt64.not_lt.mp fun h => htrunc ⟨hlimit, h⟩
            have hleft : (remaining - (e.endSequence - start)).toNat =
                remaining.toNat - (e.data.val.drop (f.toNat - a)).length := by
              rw [UInt64.toNat_sub_of_le _ _ hfits, hspan, List.length_drop]
              omega
            rw [UInt64.le_iff_toNat_le, hspan] at hfits
            simp only [if_pos hlimit]
            rw [budget, if_neg hne, hcut, List.take_append, List.take_of_length_le
              (by rw [List.length_drop]; omega), ← hleft]
            split
            next hdone =>
              rw [hdone, UInt64.toNat_zero, List.take_zero, List.append_nil]
              exact hpart
            next hmore =>
              have hpos := UInt64.lt_iff_toNat_lt.mp (UInt64.pos_iff_ne_zero.mpr hmore)
              have hnext := ih (r := r.add (e.part start e.endSequence)) hrest hf
                hpart.contiguous hmax fun _ => hpos
              rw [budget, if_neg hne, hzero, List.drop_zero] at hnext
              exact hpart.trans hnext
          · have hne : byteLimit = 0 := by simpa [UInt64.pos_iff_ne_zero] using hlimit
            simp only [if_neg hlimit]
            have hnext := ih (r := r.add (e.part start e.endSequence)) hrest hf
              hpart.contiguous hmax hrem
            rw [hcut, budget, if_pos hne]
            rw [budget, if_pos hne, hzero, List.drop_zero] at hnext
            exact hpart.trans hnext
        · -- An empty event beyond the cursor.
          simp only [if_neg hsome]
          rw [UInt64.lt_iff_toNat_lt] at hsome
          have hnil : e.data.val = [] := List.length_eq_zero_iff.mp (by omega)
          rw [content_cons, hnil, List.nil_append, show f.toNat - a = f.toNat - e.endSequence.toNat
            by omega]
          exact ih hrest hf (hto ▸ hs ▸ hr) (by omega) hrem

end Loop

/-! ### Replays of a recording -/

/-- Where a replay stops. -/
def History.replayEnd (h : History) (fromSequence byteLimit : UInt64) : ℕ :=
  if byteLimit = 0 then h.latest.toNat
  else min h.latest.toNat (fromSequence.toNat + byteLimit.toNat)

namespace Recording

variable {r : Recording} {f byteLimit : UInt64}

theorem Sound.origin_le (hs : r.Sound) : r.origin ≤ r.history.earliest.toNat := by
  have := hs.history.contiguous.total
  have := hs.retained.length_le
  have := hs.latest
  omega

theorem Sound.content_eq (hs : r.Sound) :
    content r.history.retained = r.stream.drop (r.history.earliest.toNat - r.origin) := by
  have hlen := hs.history.contiguous.total
  have hlat := hs.latest
  obtain ⟨old, hold⟩ := hs.retained
  have hcount := congrArg List.length hold
  rw [List.length_append] at hcount
  rw [← hold, List.drop_left' (by omega)]

/-- A replay gives the stream from the cursor to `replayEnd`. -/
theorem Sound.replay_spec (hs : r.Sound) (hearliest : r.history.earliest ≤ f)
    (hlat : f ≤ r.history.latest) (byteLimit : UInt64) :
    ∃ p, r.history.replay f byteLimit = .ok p ∧
      Contiguous f.toNat p.events p.toSequence.toNat ∧
      p.toSequence.toNat = r.history.replayEnd f byteLimit ∧
      content p.events = segment r.stream (f.toNat - r.origin) (p.toSequence.toNat - r.origin) := by
  rw [History.replay, if_neg (UInt64.not_lt.mpr hearliest), if_neg (UInt64.not_lt.mpr hlat)]
  rw [UInt64.le_iff_toNat_le] at hearliest hlat
  have horigin := hs.origin_le
  have hend := hs.latest
  have hrest : (content r.history.retained).drop (f.toNat - r.history.earliest.toNat) =
      r.stream.drop (f.toNat - r.origin) := by
    rw [hs.content_eq, List.drop_drop]
    congr 1
    omega
  have hpos : byteLimit ≠ 0 → 0 < byteLimit.toNat := fun h =>
    UInt64.lt_iff_toNat_lt.mp (UInt64.pos_iff_ne_zero.mpr h)
  have hspec := replayLoop_spec (r := ⟨f, f, r.history.earliest, r.history.latest, []⟩)
    hs.history.contiguous rfl rfl (by simp only; omega) hpos
  rw [hrest] at hspec
  generalize History.replayLoop f byteLimit r.history.retained byteLimit
    ⟨f, f, r.history.earliest, r.history.latest, []⟩ = p at hspec
  have hcont : content p.events = budget byteLimit byteLimit (r.stream.drop (f.toNat - r.origin)) :=
    hspec.content
  have hstop := hspec.contiguous.total
  simp only [hcont] at hstop
  refine ⟨p, rfl, hspec.contiguous, ?_, ?_⟩
  · rw [hstop, History.replayEnd, budget]
    split
    · rw [List.length_drop]
      omega
    · rw [List.length_take, List.length_drop]
      omega
  · have hfront := eq_segment_of_prefix (hcont ▸ budget_prefix byteLimit byteLimit _)
    rw [hcont] at hfront ⊢
    rw [hfront, hstop]
    congr 1
    omega

/-- Replays one after another give the stream without gap or overlap, and enough of them
give all of it. -/
theorem Sound.replays_spec (hs : r.Sound) (limits : List UInt64) (hearliest : r.history.earliest ≤ f)
    (hlat : f ≤ r.history.latest) :
    ∃ events stop, r.history.replays f limits = .ok (events, stop) ∧
      Contiguous f.toNat events stop.toNat ∧ stop ≤ r.history.latest ∧
      content events = segment r.stream (f.toNat - r.origin) (stop.toNat - r.origin) ∧
      (r.history.latest.toNat - f.toNat ≤ limits.length → stop = r.history.latest) := by
  induction limits generalizing f with
  | nil =>
    refine ⟨[], f, rfl, rfl, hlat, by rw [segment_self, content_nil], fun h => ?_⟩
    rw [UInt64.le_iff_toNat_le] at hlat
    exact UInt64.toNat_inj.mp (by rw [List.length_nil] at h; omega)
  | cons byteLimit limits ih =>
    obtain ⟨p, hp, hfirst, hto, hcont⟩ := hs.replay_spec hearliest hlat byteLimit
    rw [UInt64.le_iff_toNat_le] at hearliest hlat
    have hprogress : f.toNat ≤ p.toSequence.toNat ∧ p.toSequence.toNat ≤ r.history.latest.toNat ∧
        (f.toNat < r.history.latest.toNat → f.toNat < p.toSequence.toNat) := by
      rw [hto, History.replayEnd]
      split
      · omega
      · rename_i hne
        have := UInt64.lt_iff_toNat_lt.mp (UInt64.pos_iff_ne_zero.mpr hne)
        omega
    obtain ⟨hle, hbound, hmore⟩ := hprogress
    obtain ⟨events, stop, hq, hrest, hstop, hcontent', hall⟩ := ih (f := p.toSequence)
      (UInt64.le_iff_toNat_le.mpr (by omega)) (UInt64.le_iff_toNat_le.mpr hbound)
    have hle' := hrest.total
    refine ⟨p.events ++ events, stop, ?_, hfirst.append hrest, hstop, ?_, fun h => ?_⟩
    · simp [History.replays, hp, hq, bind, Except.bind]
    · rw [content_append, hcont, hcontent', segment_append (by omega) (by omega)]
    · exact hall (by rw [List.length_cons] at h; omega)

/-- In every state of every run the retained events are contiguous and within the limit,
and replays give back the stream that was appended. -/
theorem history_represents_stream {start s : Recording} (hinit : start.Initial)
    (hreach : Reach step Always start s) :
    Contiguous s.history.earliest.toNat s.history.retained s.history.latest.toNat ∧
    s.history.bytes.toNat = s.history.latest.toNat - s.history.earliest.toNat ∧
    s.history.bytes.toNat = (s.history.retained.map fun e => e.data.val.length).sum ∧
    s.history.bytes ≤ s.history.maxBytes ∧
    s.history.latest.toNat = s.origin + s.stream.length ∧
    ∀ f, s.history.earliest ≤ f → f ≤ s.history.latest →
      (∀ byteLimit, ∃ p, s.history.replay f byteLimit = .ok p ∧
        Contiguous f.toNat p.events p.toSequence.toNat ∧
        p.toSequence.toNat = s.history.replayEnd f byteLimit ∧
        content p.events =
          segment s.stream (f.toNat - s.origin) (p.toSequence.toNat - s.origin)) ∧
      ∀ limits : List UInt64, s.history.latest.toNat - f.toNat ≤ limits.length →
        ∃ events, s.history.replays f limits = .ok (events, s.history.latest) ∧
          Contiguous f.toNat events s.history.latest.toNat ∧
          content events = s.stream.drop (f.toNat - s.origin) := by
  have hs := sound_of_reach hinit hreach
  refine ⟨hs.history.contiguous, hs.history.bytes_eq, ?_, hs.history.limit, hs.latest,
    fun f hearliest hlatest => ⟨hs.replay_spec hearliest hlatest, fun limits henough => ?_⟩⟩
  · rw [hs.history.bytes, content, List.length_flatMap]
  · obtain ⟨events, stop, hok, hcontiguous, -, hcontent, hall⟩ :=
      hs.replays_spec limits hearliest hlatest
    obtain rfl := hall henough
    refine ⟨events, hok, hcontiguous, ?_⟩
    rw [hcontent, hs.latest, Nat.add_sub_cancel_left, segment_end]

namespace Demo

def restored : List Event :=
  [⟨1, 7, 9, ⟨[10, 11], by decide⟩⟩, ⟨1, 9, 9, .empty⟩]

/-- A history that was restored with an empty event at its end. -/
def start : Recording where
  history := { maxBytes := 4, bytes := 2, earliest := 7, latest := 9, events := restored }
  origin := (7 : UInt64).toNat
  stream := content restored

def ops : List Op :=
  [.append 1 ⟨[12, 13, 14], by decide⟩, .acknowledge "a" 9,
    .append 1 ⟨[15, 16, 17, 18, 19], by decide⟩, .append 1 ⟨[20, 21, 22], by decide⟩, .setLimit 3]

theorem start_initial : start.Initial := by
  have hres : History.restore 4 7 9 restored = some (.ok start.history) := rfl
  exact .restore hres

theorem ops_enabled : (run step start ops).isSome := rfl

def finish : Recording := final step start ops ops_enabled

end Demo

theorem history_represents_stream_restored :
    ∃ events, Demo.finish.history.replays 18 [2, 2, 2] = .ok (events, 20) ∧
      content events = [21, 22] := by
  have hreach : Reach step Always Demo.start Demo.finish := reach_final Demo.ops Demo.ops_enabled
  obtain ⟨-, -, -, -, -, hall⟩ := history_represents_stream Demo.start_initial hreach
  obtain ⟨events, hok, -, hcontent⟩ := (hall 18 (by decide +kernel) (by decide +kernel)).2 [2, 2, 2]
    (by decide +kernel)
  have hlatest : Demo.finish.history.latest = 20 := by decide +kernel
  refine ⟨events, hlatest ▸ hok, ?_⟩
  rw [hcontent]
  decide +kernel

end Recording

end Paperboat.TerminalHistory
