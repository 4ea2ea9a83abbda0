import Paperboat.TerminalHistory.History

/-! The representation of a history: its events follow on one another from the earliest
to the latest sequence number and hold the end of the stream that was appended. Every
operation keeps this, and sequence numbers never wrap. -/

namespace Paperboat.TerminalHistory

open Transition

theorem Slice.len_toNat (s : Slice) : s.len.toNat = s.val.length := by
  rw [Slice.len, UInt64.toNat_ofNat', Nat.mod_eq_of_lt (by omega)]

@[simp] theorem content_nil : content [] = [] := rfl

@[simp] theorem content_cons (e : Event) (es : List Event) :
    content (e :: es) = e.data.val ++ content es :=
  rfl

@[simp] theorem content_append (es fs : List Event) : content (es ++ fs) = content es ++ content fs :=
  List.flatMap_append

/-! ### Contiguous events -/

/-- The events follow on one another from the sequence number `a` to `b`. -/
def Contiguous : ℕ → List Event → ℕ → Prop
  | a, [], b => a = b
  | a, e :: es, b =>
    e.startSequence.toNat = a ∧ e.endSequence.toNat = a + e.data.val.length ∧
      Contiguous e.endSequence.toNat es b

theorem Contiguous.total (h : Contiguous a es b) : b = a + (content es).length := by
  induction es generalizing a with
  | nil => exact h.symm
  | cons e es ih =>
    obtain ⟨-, hend, hrest⟩ := h
    rw [ih hrest, hend, content_cons, List.length_append]
    omega

theorem Contiguous.append (h : Contiguous a es b) (h' : Contiguous b fs c) :
    Contiguous a (es ++ fs) c := by
  induction es generalizing a with
  | nil => exact h ▸ h'
  | cons e es ih => exact ⟨h.1, h.2.1, ih h.2.2⟩

theorem contiguous_singleton {e : Event}
    (h : e.endSequence.toNat = e.startSequence.toNat + e.data.val.length) :
    Contiguous e.startSequence.toNat [e] e.endSequence.toNat :=
  ⟨rfl, h, rfl⟩

/-! ### Compaction -/

namespace History

variable {h : History}

/-- The representation before it is cut down to the limit. -/
structure Packed (h : History) : Prop where
  contiguous : Contiguous h.earliest.toNat h.retained h.latest.toNat
  bytes : h.bytes.toNat = (content h.retained).length
  head : h.head ≤ h.events.length

structure Sound (h : History) : Prop extends h.Packed where
  limit : h.bytes ≤ h.maxBytes

theorem Packed.bytes_eq (hp : h.Packed) : h.bytes.toNat = h.latest.toNat - h.earliest.toNat := by
  have := hp.contiguous.total
  have := hp.bytes
  omega

/-- `h'` is `h` without some events at the front. -/
structure Evicted (h h' : History) : Prop where
  latest : h'.latest = h.latest
  maxBytes : h'.maxBytes = h.maxBytes
  content : content h'.retained <:+ content h.retained

variable {g : History}

/-- The slot at `head` is given up. -/
theorem evict_head {event : Event} (hp : h.Packed) (hevent : h.events[h.head]? = some event)
    (hbytes : g.bytes = h.bytes - event.data.len)
    (hearliest : g.earliest = event.endSequence) (hlat : g.latest = h.latest)
    (hmax : g.maxBytes = h.maxBytes) (hevents : g.events = h.events.set h.head {})
    (hhead : g.head = h.head + 1) : g.Packed ∧ Evicted h g := by
  obtain ⟨hlt, hget⟩ := List.getElem?_eq_some_iff.mp hevent
  have hcons : h.retained = event :: g.retained := by
    rw [retained, retained, hevents, hhead, List.drop_set_of_lt (by omega),
      List.drop_eq_getElem_cons hlt, hget]
  have hcontig := hp.contiguous
  have hcount := hp.bytes
  rw [hcons] at hcontig hcount
  rw [content_cons, List.length_append] at hcount
  refine ⟨⟨?_, ?_, ?_⟩, ⟨hlat, hmax, ?_⟩⟩
  · rw [hearliest, hlat]
    exact hcontig.2.2
  · rw [hbytes, UInt64.toNat_sub_of_le, event.data.len_toNat]
    · omega
    · rw [UInt64.le_iff_toNat_le, event.data.len_toNat]
      omega
  · rw [hhead, hevents, List.length_set]
    omega
  · rw [hcons, content_cons]
    exact List.suffix_append ..

theorem Evicted.trans (h : Evicted h₁ h₂) (h' : Evicted h₂ h₃) : Evicted h₁ h₃ :=
  ⟨h'.latest.trans h.latest, h'.maxBytes.trans h.maxBytes, h'.content.trans h.content⟩

theorem compactLoop_spec (hp : h.Packed) (hn : h.events.length - h.head ≤ n) :
    (compactLoop n h).Packed ∧ Evicted h (compactLoop n h) ∧
      ((compactLoop n h).bytes ≤ h.maxBytes ∨
        (compactLoop n h).head = (compactLoop n h).events.length) := by
  induction n generalizing h with
  | zero =>
    have := hp.head
    exact ⟨hp, ⟨rfl, rfl, List.suffix_rfl⟩, .inr (by rw [compactLoop]; omega)⟩
  | succ n ih =>
    rw [compactLoop]
    split
    next hover =>
      split
      next event hevent =>
        obtain ⟨hp', he⟩ := evict_head hp hevent (g := { h with
          bytes := h.bytes - event.data.len
          earliest := event.endSequence
          events := h.events.set h.head {}
          head := h.head + 1 }) rfl rfl rfl rfl rfl rfl
        obtain ⟨hp'', he', hdone⟩ := ih hp' (by simp only [List.length_set]; omega)
        exact ⟨hp'', he.trans he', hdone⟩
      next hnone =>
        have := List.getElem?_eq_none_iff.mp hnone
        have := hp.head
        exact ⟨hp, ⟨rfl, rfl, List.suffix_rfl⟩, .inr (by omega)⟩
    next hfits => exact ⟨hp, ⟨rfl, rfl, List.suffix_rfl⟩, .inl (UInt64.not_lt.mp hfits)⟩

theorem compactLocked_spec (hp : h.Packed) : (compactLocked h).Sound ∧ Evicted h (compactLocked h) := by
  obtain ⟨hp', he, hdone⟩ := compactLoop_spec hp le_rfl
  rw [compactLocked]
  generalize compactLoop (h.events.length - h.head) h = g at hp' he hdone
  split
  next hall =>
    -- Nothing is retained, so nothing is counted.
    have hnil : g.retained = [] := by rw [retained, hall, List.drop_length]
    have hzero : g.bytes = 0 := by
      rw [← UInt64.toNat_inj, hp'.bytes, hnil]
      rfl
    refine ⟨⟨⟨rfl, ?_, le_rfl⟩, ?_⟩, ⟨he.latest, he.maxBytes, List.nil_suffix⟩⟩
    · simp [hzero, retained]
    · simp [hzero]
  next hsome =>
    exact ⟨⟨hp', he.maxBytes ▸ hdone.resolve_right hsome⟩, he⟩

/-! ### Operations -/

/-- An event that follows on the latest one. -/
theorem append_packed {e : Event} (hp : h.Packed)
    (hstart : e.startSequence = h.latest)
    (hend : e.endSequence.toNat = h.latest.toNat + e.data.val.length)
    (hlat : g.latest = e.endSequence) (hbytes : g.bytes = h.bytes + e.data.len)
    (hevents : g.events = h.events ++ [e]) (hearliest : g.earliest = h.earliest)
    (hhead : g.head = h.head) : g.Packed ∧ content g.retained = content h.retained ++ e.data.val := by
  have hkept : g.retained = h.retained ++ [e] := by
    rw [retained, retained, hevents, hhead, List.drop_append_of_le_length hp.head]
  have hsum : content g.retained = content h.retained ++ e.data.val := by
    rw [hkept, content_append, content_cons, content_nil, List.append_nil]
  have hcount := hp.bytes_eq
  have hbound := e.endSequence.toNat_lt
  refine ⟨⟨?_, ?_, ?_⟩, hsum⟩
  · rw [hearliest, hlat, hkept]
    refine hp.contiguous.append ?_
    rw [← hstart] at hend ⊢
    exact contiguous_singleton hend
  · rw [hbytes, UInt64.toNat_add, e.data.len_toNat, Nat.mod_eq_of_lt (by omega), hsum,
      List.length_append, hp.bytes]
  · rw [hhead, hevents, List.length_append]
    exact Nat.le_add_right_of_le hp.head

/-- A restored event ends after its data, up to multiples of `2 ^ 64`. -/
theorem endSequence_of_check {e : Event} (hcheck : ¬(e.startSequence ≠ h.latest ∨
    e.endSequence - e.startSequence ≠ e.data.len)) :
    e.startSequence = h.latest ∧ e.endSequence = h.latest + e.data.len := by
  obtain ⟨hstart, hspan⟩ := not_or.mp hcheck
  refine ⟨not_not.mp hstart, ?_⟩
  rw [← not_not.mp hstart, ← not_not.mp hspan, UInt64.add_comm, UInt64.sub_add_cancel]

/-- Restored sequence numbers are right up to multiples of `2 ^ 64`. -/
theorem restoreLoop_latest {events : List Event}
    (hr : restoreLoop events h = .ok g) :
    g.latest.toNat = (h.latest.toNat + (content events).length) % 2 ^ 64 := by
  induction events generalizing h with
  | nil =>
    cases hr
    exact (Nat.mod_eq_of_lt g.latest.toNat_lt).symm
  | cons e rest ih =>
    rw [restoreLoop] at hr
    split at hr
    · contradiction
    · rename_i hcheck
      rw [ih hr, (endSequence_of_check hcheck).2, UInt64.toNat_add, e.data.len_toNat, content_cons, List.length_append]
      omega

/-- Where the sequence numbers do not wrap, the restored events are packed. -/
theorem restoreLoop_packed {events : List Event} (hp : h.Packed)
    (hroom : h.latest.toNat + (content events).length < 2 ^ 64)
    (hr : restoreLoop events h = .ok g) :
    g.Packed ∧ g.maxBytes = h.maxBytes ∧
      content g.retained = content h.retained ++ content events := by
  induction events generalizing h with
  | nil =>
    cases hr
    exact ⟨hp, rfl, by simp⟩
  | cons e rest ih =>
    rw [restoreLoop] at hr
    split at hr
    · contradiction
    · rename_i hcheck
      obtain ⟨hstart, hspan⟩ := endSequence_of_check hcheck
      rw [content_cons, List.length_append] at hroom
      have hend : e.endSequence.toNat = h.latest.toNat + e.data.val.length := by
        rw [hspan, UInt64.toNat_add, e.data.len_toNat, Nat.mod_eq_of_lt (by omega)]
      obtain ⟨hp', hcont⟩ := append_packed (e := e) (g := { h with
          events := h.events ++ [e]
          bytes := h.bytes + e.data.len
          latest := e.endSequence }) hp hstart hend rfl rfl rfl rfl rfl
      obtain ⟨hg, hmax, hall⟩ := ih hp' (by simp only; omega) hr
      exact ⟨hg, hmax, by rw [hall, hcont, content_cons, List.append_assoc]⟩

theorem Sound.setLimit (hs : h.Sound) (maxBytes : UInt64) :
    (h.setLimit maxBytes).2.Sound ∧ (h.setLimit maxBytes).2.latest = h.latest ∧
      content (h.setLimit maxBytes).2.retained <:+ content h.retained := by
  rw [History.setLimit]
  split
  · exact ⟨hs, rfl, List.suffix_rfl⟩
  · obtain ⟨hs', he⟩ := compactLocked_spec (h := { h with maxBytes })
      { hs with }
    exact ⟨hs', he.latest, he.content⟩

theorem sound_clear (h : History) : h.clear.2.Sound where
  contiguous := rfl
  bytes := rfl
  head := le_rfl
  limit := UInt64.zero_le

theorem Sound.acknowledge (hs : h.Sound) (attachmentID : String) (nextSequence : UInt64) :
    (h.acknowledge attachmentID nextSequence).2.Sound := by
  rw [History.acknowledge]
  split
  · exact hs
  · exact ⟨{ hs with }, hs.limit⟩

end History

/-! ### Recordings -/

namespace Recording

variable {r r' : Recording}

/-- The history is well formed and retains the end of the stream. -/
structure Sound (r : Recording) : Prop where
  history : r.history.Sound
  latest : r.history.latest.toNat = r.origin + r.stream.length
  retained : content r.history.retained <:+ r.stream

/-- `appendOwned` turns down what the sequence numbers have no room for. -/
theorem full_iff (h : History) (data : Slice) :
    UInt64.ofNat (2 ^ 64 - 1) - h.latest < data.len ↔
      2 ^ 64 ≤ h.latest.toNat + data.val.length := by
  have hmax : (UInt64.ofNat (2 ^ 64 - 1)).toNat = 2 ^ 64 - 1 := by decide
  have hlt := h.latest.toNat_lt
  rw [UInt64.lt_iff_toNat_lt, data.len_toNat,
    UInt64.toNat_sub_of_le _ _ (UInt64.le_iff_toNat_le.mpr (by omega))]
  omega

theorem Sound.append (hs : r.Sound) (channel : UInt8) (data : Slice)
    (hst : r.step (.append channel data) = some r') : r'.Sound := by
  have hlatest := hs.latest
  have hlt := r.history.latest.toNat_lt
  cases hst
  rw [History.appendOwned]
  split
  next hempty =>
    have hnil : data.val = [] := by
      rw [← List.length_eq_zero_iff, ← data.len_toNat, hempty]
      rfl
    have hkept : r.accept data = r.stream := by simp [accept, hnil]
    exact ⟨hs.history, hkept ▸ hs.latest, hkept ▸ hs.retained⟩
  next =>
    split
    next hfull =>
      have hover := (full_iff r.history data).mp hfull
      have hkept : r.accept data = r.stream := by rw [accept, if_neg (by omega)]
      exact ⟨hs.history, hkept ▸ hs.latest, hkept ▸ hs.retained⟩
    next hroom =>
      have hfits : r.history.latest.toNat + data.val.length < 2 ^ 64 :=
        not_le.mp fun hover => hroom ((full_iff r.history data).mpr hover)
      have hgrown : r.accept data = r.stream ++ data.val := by rw [accept, if_pos (by omega)]
      have hend : (r.history.latest + data.len).toNat =
          r.history.latest.toNat + data.val.length := by
        rw [UInt64.toNat_add, data.len_toNat, Nat.mod_eq_of_lt (by omega)]
      obtain ⟨hp, hcont⟩ := History.append_packed
        (e := ⟨channel, r.history.latest, r.history.latest + data.len, data⟩)
        (g := { r.history with
          latest := r.history.latest + data.len
          bytes := r.history.bytes + data.len
          events := r.history.events ++
            [⟨channel, r.history.latest, r.history.latest + data.len, data⟩] })
        hs.history.toPacked rfl hend rfl rfl rfl rfl rfl
      obtain ⟨hsound, he⟩ := History.compactLocked_spec hp
      refine ⟨hsound, ?_, ?_⟩
      · rw [he.latest, hend, hs.latest, hgrown, List.length_append, Nat.add_assoc]
      · refine he.content.trans ?_
        obtain ⟨old, hold⟩ := hs.retained
        exact ⟨old, by rw [hcont, ← List.append_assoc, hold, hgrown]⟩

theorem sound_step (hs : r.Sound) (hst : r.step op = some r') : r'.Sound := by
  cases op with
  | append channel data => exact hs.append channel data hst
  | setLimit maxBytes =>
    cases hst
    obtain ⟨hsound, hlat, hcont⟩ := hs.history.setLimit maxBytes
    exact ⟨hsound, hlat ▸ hs.latest, hcont.trans hs.retained⟩
  | clear =>
    cases hst
    exact ⟨r.history.sound_clear, hs.latest, List.nil_suffix⟩
  | acknowledge attachmentID nextSequence =>
    cases hst
    refine ⟨hs.history.acknowledge attachmentID nextSequence, ?_, ?_⟩
    · rw [History.acknowledge]
      split <;> exact hs.latest
    · rw [History.acknowledge]
      split <;> exact hs.retained

theorem Initial.sound (h : r.Initial) : r.Sound := by
  cases h with
  | @new maxBytes h hnew =>
    rw [History.new] at hnew
    split at hnew
    · contradiction
    · cases hnew
      exact ⟨⟨⟨rfl, rfl, le_rfl⟩, UInt64.zero_le⟩, rfl, List.nil_suffix⟩
  | @restore maxBytes earliest latest events h hres =>
    rw [History.restore] at hres
    split at hres
    case isFalse => contradiction
    rename_i hmemory
    rw [Option.some.injEq, History.new] at hres
    split at hres
    · contradiction
    rename_i h₀ hnew
    split at hnew
    · contradiction
    cases hnew
    split at hres
    · contradiction
    rename_i horder
    simp only [bind, Except.bind] at hres
    split at hres
    · contradiction
    rename_i g hloop
    split at hres
    · contradiction
    rename_i hcheck
    cases hres
    obtain ⟨hlat, hlimit⟩ := not_or.mp hcheck
    have hmod := History.restoreLoop_latest hloop
    have hle : earliest.toNat ≤ latest.toNat := UInt64.le_iff_toNat_le.mp (UInt64.not_lt.mp horder)
    -- A wrap would put the latest sequence number before the earliest.
    have hroom : earliest.toNat + (content events).length < 2 ^ 64 := by
      rw [not_not.mp hlat] at hmod
      by_contra hwrap
      simp only at hmod
      omega
    have hempty : History.Packed { maxBytes, earliest, latest := earliest } :=
      ⟨rfl, rfl, le_rfl⟩
    obtain ⟨hp, hmax, hcont⟩ := History.restoreLoop_packed hempty hroom hloop
    refine ⟨⟨hp, ?_⟩, ?_, ?_⟩
    · rw [hmax]
      exact UInt64.not_lt.mp hlimit
    · rw [hmod, Nat.mod_eq_of_lt hroom]
    · rw [hcont]
      exact List.suffix_rfl

/-- Every state of every run from `New` or `Restore` is well formed. -/
theorem sound_of_reach (hr : r.Initial) (hreach : Reach step Always r r') : r'.Sound :=
  hreach.invariant hr.sound fun hs _ => sound_step hs

end Recording

end Paperboat.TerminalHistory
