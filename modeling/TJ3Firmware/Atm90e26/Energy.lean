import TJ3Firmware.Atm90e26.Snapshot

namespace TJ3Firmware

open Library.Memory Library.Interaction

section Meter

-- The two energies that are read and cleared.
inductive Energy
  | positive
  | negative
  deriving Repr, DecidableEq

def Energy.addr : Energy → Byte
  | .positive => ATM90E26_REG_APENERGY
  | .negative => ATM90E26_REG_ANENERGY

def Energy.field : Energy → Field
  | .positive => .energyActiveP
  | .negative => .energyActiveN

-- The chip and its link: what the energy registers hold, how much energy was
-- accumulated and how much of it cleared so far, the bytes of an unfinished
-- request, and the answer bytes on their way.
structure Meter where
  held : Energy → Word16
  total : Energy → Nat
  cleared : Energy → Nat
  request : List Byte
  coming : List Byte

-- Energy is metered, without overflow of a register.
structure Accumulates (meter grown : Meter) : Prop where
  held : ∀ energy, (grown.held energy).toNat + meter.total energy = (meter.held energy).toNat + grown.total energy
  total : ∀ energy, meter.total energy ≤ grown.total energy
  cleared : grown.cleared = meter.cleared
  request : grown.request = meter.request
  coming : grown.coming = meter.coming

-- The bytes of older answers that may still come after a request, which is none
-- of them unless late bytes are allowed.
def Meter.older (meter : Meter) (late : Bool) : List Byte := if late then meter.coming else []

-- The end of a request. It is lost, or the chip answers it, and a request for
-- an energy clears the register.
inductive Hears (late : Bool) (frame : List Byte) (meter : Meter) : Meter → Prop
  | lost (old : List Byte) (hold : old.Sublist (meter.older late)) :
      Hears late frame meter { meter with request := [], coming := old }
  | energy (energy : Energy) (checksum : Byte) (old : List Byte)
      (hold : old.Sublist (meter.older late)) (hframe : frame = readFrame energy.addr) :
      Hears late frame meter { meter with
        held := Function.update meter.held energy 0
        cleared := Function.update meter.cleared energy (meter.cleared energy + (meter.held energy).toNat)
        request := []
        coming := old ++ [lowByte (meter.held energy), highByte (meter.held energy), checksum] }
  | other (answer old : List Byte) (hold : old.Sublist (meter.older late))
      (hframe : ∀ energy : Energy, frame ≠ readFrame energy.addr) :
      Hears late frame meter { meter with request := [], coming := old ++ answer }

-- Before any call energy may accumulate. A poll may skip bytes that were lost.
def meterAdvance (late : Bool) (meter : Meter) (event : UartEvent) (next : Meter) : Prop :=
  ∃ grown, Accumulates meter grown ∧
    match event with
    | ⟨.pollOut byte, _⟩ =>
        if grown.request.length < 2 then next = { grown with request := grown.request ++ [byte] }
        else Hears late (grown.request ++ [byte]) grown next
    | ⟨.pollIn, some byte⟩ => ∃ lost rest, grown.coming = lost ++ byte :: rest ∧ next = { grown with coming := rest }
    | _ => next = grown

-- Accumulated energy is still held or was cleared.
def Balanced (meter : Meter) : Prop := ∀ energy, meter.total energy = (meter.held energy).toNat + meter.cleared energy

theorem balanced_accumulates (meter grown : Meter) (h : Accumulates meter grown) (hmeter : Balanced meter) :
    Balanced grown := by
  intro energy
  have hheld := h.held energy
  have htotal := hmeter energy
  rw [h.cleared]
  omega

theorem balanced_hears (late : Bool) (frame : List Byte) (meter next : Meter) (h : Hears late frame meter next)
    (hmeter : Balanced meter) : Balanced next := by
  cases h with
  | lost old hold => exact hmeter
  | other answer old hold hframe => exact hmeter
  | energy cleared checksum old hold hframe =>
      intro energy
      have htotal := hmeter energy
      by_cases hsame : energy = cleared
      · subst hsame
        simp only [Function.update_self]
        have hzero : (0 : Word16).toNat = 0 := rfl
        omega
      · simp only [Function.update_of_ne hsame]
        exact htotal

-- What energies there are changes only with metering and at the end of a request.
theorem meter_step (late : Bool) (meter next : Meter) (event : UartEvent) (h : meterAdvance late meter event next) :
    ∃ grown, Accumulates meter grown ∧
      ((next.held = grown.held ∧ next.total = grown.total ∧ next.cleared = grown.cleared) ∨
        ∃ frame, Hears late frame grown next) := by
  obtain ⟨grown, haccumulates, heffect⟩ := h
  refine ⟨grown, haccumulates, ?_⟩
  obtain ⟨op, reply⟩ := event
  cases op with
  | pollOut byte =>
      simp only at heffect
      by_cases hshort : grown.request.length < 2
      · rw [if_pos hshort] at heffect
        exact Or.inl ⟨by rw [heffect], by rw [heffect], by rw [heffect]⟩
      · rw [if_neg hshort] at heffect
        exact Or.inr ⟨_, heffect⟩
  | pollIn =>
      cases reply with
      | some byte =>
          obtain ⟨lost, rest, -, rfl⟩ := heffect
          exact Or.inl ⟨rfl, rfl, rfl⟩
      | none =>
          cases heffect
          exact Or.inl ⟨rfl, rfl, rfl⟩
  | _ =>
      cases heffect
      exact Or.inl ⟨rfl, rfl, rfl⟩

theorem balanced_step (late : Bool) (meter next : Meter) (event : UartEvent) (h : meterAdvance late meter event next)
    (hmeter : Balanced meter) : Balanced next := by
  obtain ⟨grown, haccumulates, hsame | ⟨frame, hhears⟩⟩ := meter_step late meter next event h
  · obtain ⟨hheld, htotal, hcleared⟩ := hsame
    intro energy
    rw [hheld, htotal, hcleared]
    exact balanced_accumulates meter grown haccumulates hmeter energy
  · exact balanced_hears late frame grown next hhears (balanced_accumulates meter grown haccumulates hmeter)

theorem balanced_path (late : Bool) (meter next : Meter) (trace : List UartEvent)
    (h : Path (meterAdvance late) meter trace next) (hmeter : Balanced meter) : Balanced next := by
  induction h with
  | nil meter => exact hmeter
  | cons meter middle last event trace step _ ih => exact ih (balanced_step late meter middle event step hmeter)

end Meter

section Exchange

variable {late : Bool} {meter next : Meter}

-- While the driver listens nothing is cleared, and what it gets was on its way.
theorem listening_step (event : UartEvent) (h : meterAdvance late meter event next) (hlistening : Listening event.op) :
    next.cleared = meter.cleared ∧ next.request = meter.request ∧
      (delivered [event] ++ next.coming).Sublist meter.coming := by
  obtain ⟨grown, haccumulates, heffect⟩ := h
  rw [← haccumulates.cleared, ← haccumulates.request, ← haccumulates.coming]
  obtain ⟨op, reply⟩ := event
  cases op with
  | pollOut byte => exact absurd hlistening id
  | pollIn =>
      cases reply with
      | some byte =>
          obtain ⟨lost, rest, hcoming, rfl⟩ := heffect
          rw [hcoming]
          exact ⟨rfl, rfl, List.sublist_append_right lost (byte :: rest)⟩
      | none =>
          cases heffect
          exact ⟨rfl, rfl, List.Sublist.refl _⟩
  | _ =>
      cases heffect
      exact ⟨rfl, rfl, List.Sublist.refl _⟩

theorem listening_path (trace : List UartEvent) (h : Path (meterAdvance late) meter trace next)
    (hlistening : ∀ event ∈ trace, Listening event.op) :
    next.cleared = meter.cleared ∧ next.request = meter.request ∧
      (delivered trace ++ next.coming).Sublist meter.coming := by
  induction h with
  | nil meter => exact ⟨rfl, rfl, List.Sublist.refl _⟩
  | cons meter middle last event trace step _ ih =>
      obtain ⟨hevent, htrace⟩ := List.forall_mem_cons.mp hlistening
      obtain ⟨hcleared, hrequest, hcoming⟩ := listening_step event step hevent
      obtain ⟨hcleared', hrequest', hcoming'⟩ := ih htrace
      refine ⟨hcleared'.trans hcleared, hrequest'.trans hrequest, ?_⟩
      have hsplit : delivered (event :: trace) = delivered [event] ++ delivered trace := delivered_append [event] trace
      rw [hsplit, List.append_assoc]
      exact (hcoming'.append_left (delivered [event])).trans hcoming

-- A request of three bytes reaches the chip as a whole or not at all.
theorem sent_path (first second third : Byte) (h : Path (meterAdvance late) meter (sent [first, second, third]) next)
    (hrequest : meter.request = []) :
    ∃ grown, grown.cleared = meter.cleared ∧ Hears late [first, second, third] grown next := by
  obtain _ | ⟨_, one, _, _, _, ⟨grown, hgrown, hone⟩, _ | ⟨_, two, _, _, _, ⟨grown', hgrown', htwo⟩,
    _ | ⟨_, three, _, _, _, ⟨grown'', hgrown'', hthree⟩, hnil⟩⟩⟩ := h
  cases hnil
  have hempty := hgrown.request.trans hrequest
  simp only [hempty, List.nil_append] at hone
  rw [if_pos (by simp)] at hone
  have honeRequest : grown'.request = [first] := by rw [hgrown'.request, hone]
  simp only [honeRequest] at htwo
  rw [if_pos (by simp)] at htwo
  have htwoRequest : grown''.request = [first, second] := by rw [hgrown''.request, htwo]; rfl
  simp only [htwoRequest] at hthree
  rw [if_neg (by simp)] at hthree
  refine ⟨grown'', ?_, hthree⟩
  rw [hgrown''.cleared, htwo]
  simp only
  rw [hgrown'.cleared, hone]
  exact hgrown.cleared

theorem flush_listening (stale : List Byte) : ∀ event ∈ stale.map polled ++ [emptyPoll], Listening event.op := by
  intro event hevent
  rcases List.mem_append.mp hevent with hpolled | hempty
  · obtain ⟨byte, -, rfl⟩ := List.mem_map.mp hpolled
    trivial
  · cases List.mem_singleton.mp hempty
    trivial

-- What one read clears, when no late bytes come.
theorem exchange_path {addr : Byte} (exchange : ReadExchange addr)
    (h : Path (meterAdvance false) meter exchange.trace next) (hrequest : meter.request = []) (energy : Energy) :
    next.request = [] ∧ (readFrame addr ≠ readFrame energy.addr → next.cleared energy = meter.cleared energy) ∧
      (readFrame addr = readFrame energy.addr → ∀ lsb msb checksum,
        delivered exchange.answer = [lsb, msb, checksum] →
          next.cleared energy = meter.cleared energy + (word16 lsb msb).toNat) := by
  have hsplit : exchange.trace = (exchange.stale.map polled ++ [emptyPoll]) ++
      (sent (readFrame addr) ++ exchange.answer) := by simp [ReadExchange.trace]
  rw [hsplit] at h
  obtain ⟨flushed, hflush, hrest⟩ := (path_append _ _).mp h
  obtain ⟨asked, hsent, hanswer⟩ := (path_append _ _).mp hrest
  obtain ⟨hflushed, hflushedRequest, -⟩ := listening_path _ hflush (flush_listening exchange.stale)
  obtain ⟨grown, hgrown, hhears⟩ := sent_path _ _ _ hsent (hflushedRequest.trans hrequest)
  obtain ⟨hcleared, hlastRequest, hcoming⟩ := listening_path _ hanswer exchange.listening
  rw [hcleared, hlastRequest, ← hflushed, ← hgrown]
  cases hhears with
  | lost old hold =>
      rw [Meter.older, if_neg Bool.false_ne_true, List.sublist_nil] at hold
      refine ⟨rfl, fun _ => rfl, ?_⟩
      intro _ lsb msb checksum hdelivered
      simp [hdelivered, hold] at hcoming
  | other answer old hold hframe => exact ⟨rfl, fun _ => rfl, fun hsame => absurd hsame (hframe energy)⟩
  | energy read checksum old hold hframe =>
      rw [Meter.older, if_neg Bool.false_ne_true, List.sublist_nil] at hold
      refine ⟨rfl, ?_, ?_⟩
      · intro hother
        refine Function.update_of_ne ?_ _ _
        rintro rfl
        exact hother hframe
      · intro hsame lsb msb checksum' hdelivered
        have hread : read = energy := by
          have hframes := hframe.symm.trans hsame
          cases read <;> cases energy <;> first | rfl | exact absurd hframes (by decide)
        subst hread
        -- three bytes of an answer of three are the answer
        have hall : [lsb, msb, checksum'] = [lowByte (grown.held read), highByte (grown.held read), checksum] := by
          refine List.Sublist.eq_of_length ?_ rfl
          rw [hold, List.nil_append, hdelivered] at hcoming
          exact (List.sublist_append_left _ _).trans hcoming
        cases hall
        rw [word16_lowByte_highByte]
        exact Function.update_self _ _ _

end Exchange

section Law

variable {reads : List (Byte × Field)} {data last : Data} {trace : List UartEvent} {values : List (Field × Word16)}
  {ret : Int} {meter next : Meter}

theorem Fetched.request_path (h : Fetched reads data trace values ret last)
    (hpath : Path (meterAdvance false) meter trace next) (hrequest : meter.request = []) (energy : Energy) :
    next.request = [] ∧ ((∀ entry ∈ reads, readFrame entry.1 ≠ readFrame energy.addr) →
      next.cleared energy = meter.cleared energy) := by
  induction h generalizing meter with
  | done data =>
      cases hpath
      exact ⟨hrequest, fun _ => rfl⟩
  | read addr field rest data last exchange lsb msb checksum trace values ret _ _ ih =>
      obtain ⟨middle, hfirst, hrest⟩ := (path_append _ _).mp hpath
      obtain ⟨hmiddle, hkept, -⟩ := exchange_path exchange hfirst hrequest energy
      obtain ⟨hnext, hcleared⟩ := ih hrest hmiddle
      refine ⟨hnext, ?_⟩
      intro hother
      obtain ⟨hframe, hframes⟩ := List.forall_mem_cons.mp hother
      rw [hcleared hframes, hkept hframe]
  | timeout addr field rest data exchange hshort =>
      obtain ⟨hnext, hkept, -⟩ := exchange_path exchange hpath hrequest energy
      exact ⟨hnext, fun hother => hkept (hother _ List.mem_cons_self)⟩

-- A fetch that read all registers stored what it cleared.
theorem Fetched.cleared_path (h : Fetched reads data trace values ret last)
    (hpath : Path (meterAdvance false) meter trace next) (hrequest : meter.request = []) (hret : ret = 0)
    (energy : Energy) (hmem : (energy.addr, energy.field) ∈ reads)
    (hframes : (reads.map fun entry => readFrame entry.1).Nodup) (hfields : (reads.map Prod.snd).Nodup) :
    next.cleared energy = meter.cleared energy + (last.get energy.field).toNat := by
  induction h generalizing meter with
  | done data => cases hmem
  | read addr field rest data last exchange lsb msb checksum trace values ret hdelivered hmore ih =>
      obtain ⟨middle, hfirst, hrest⟩ := (path_append _ _).mp hpath
      obtain ⟨hmiddle, hkept, hread⟩ := exchange_path exchange hfirst hrequest energy
      rw [List.map_cons, List.nodup_cons] at hframes hfields
      rcases List.mem_cons.mp hmem with hentry | hentry
      · -- the later reads clear nothing more and are of other fields
        cases hentry
        have hother : ∀ entry ∈ rest, readFrame entry.1 ≠ readFrame energy.addr := by
          intro entry hentry hsame
          exact hframes.1 (List.mem_map.mpr ⟨entry, hentry, hsame⟩)
        rw [(hmore.request_path hrest hmiddle energy).2 hother, hread rfl lsb msb checksum hdelivered,
          hmore.get_of_not_mem energy.field hfields.1, Data.get_set, if_pos rfl]
      · have hother : readFrame addr ≠ readFrame energy.addr := by
          intro hsame
          exact hframes.1 (List.mem_map.mpr ⟨_, hentry, hsame.symm⟩)
        rw [ih hrest hmiddle hret hentry hframes.2 hfields.2, hkept hother]
  | timeout => cases hret

theorem energy_mem (energy : Energy) : (energy.addr, energy.field) ∈ sampleReads := by
  cases energy <;> decide

theorem sampleReads_frames : (sampleReads.map fun entry => readFrame entry.1).Nodup := by decide

end Law

-- A fetch with the meter before and after it.
structure MeteredFetch (late : Bool) where
  fetch : Fetch
  before : Meter
  after : Meter
  path : Path (meterAdvance late) before fetch.run.trace after

-- Fetches on one meter, which goes on metering between them.
inductive MeterRun (late : Bool) : Meter × Data → List (MeteredFetch late) → Meter × Data → Prop
  | nil (state : Meter × Data) : MeterRun late state [] state
  | wait (meter grown : Meter) (data : Data) (fetches : List (MeteredFetch late)) (last : Meter × Data)
      (haccumulates : Accumulates meter grown) (more : MeterRun late (grown, data) fetches last) :
      MeterRun late (meter, data) fetches last
  | fetch (metered : MeteredFetch late) (fetches : List (MeteredFetch late)) (last : Meter × Data)
      (more : MeterRun late (metered.after, metered.fetch.last) fetches last) :
      MeterRun late (metered.before, metered.fetch.start) (metered :: fetches) last

-- The energy stored by the fetches that returned 0.
def stored {late : Bool} (energy : Energy) : List (MeteredFetch late) → Nat
  | [] => 0
  | metered :: rest =>
      (if metered.fetch.ret = 0 then (metered.fetch.last.get energy.field).toNat else 0) + stored energy rest

-- The energy the chip cleared during the fetches that failed.
def lost {late : Bool} (energy : Energy) : List (MeteredFetch late) → Nat
  | [] => 0
  | metered :: rest =>
      (if metered.fetch.ret = 0 then 0 else metered.after.cleared energy - metered.before.cleared energy) +
        lost energy rest

section Account

theorem cleared_le_hears (late : Bool) (frame : List Byte) (meter next : Meter) (h : Hears late frame meter next)
    (energy : Energy) : meter.cleared energy ≤ next.cleared energy := by
  cases h with
  | lost old hold => exact Nat.le_refl _
  | other answer old hold hframe => exact Nat.le_refl _
  | energy read checksum old hold hframe =>
      by_cases hsame : energy = read
      · simp [hsame]
      · simp [hsame]

theorem cleared_le_path (late : Bool) (meter next : Meter) (trace : List UartEvent)
    (h : Path (meterAdvance late) meter trace next) (energy : Energy) : meter.cleared energy ≤ next.cleared energy := by
  induction h with
  | nil meter => exact Nat.le_refl _
  | cons meter middle last event trace step _ ih =>
      refine Nat.le_trans ?_ ih
      obtain ⟨grown, haccumulates, ⟨-, -, hcleared⟩ | ⟨frame, hhears⟩⟩ := meter_step late meter middle event step
      · rw [hcleared, haccumulates.cleared]
      · rw [← haccumulates.cleared]
        exact cleared_le_hears late frame grown middle hhears energy

-- The meter at the start of a run: nothing was cleared yet.
structure Started (meter : Meter) : Prop where
  request : meter.request = []
  cleared : ∀ energy, meter.cleared energy = 0
  total : ∀ energy, meter.total energy = (meter.held energy).toNat

theorem Fetch.cleared (metered : MeteredFetch false) (hrequest : metered.before.request = []) (energy : Energy) :
    metered.after.request = [] ∧ (metered.fetch.ret = 0 → metered.after.cleared energy =
      metered.before.cleared energy + (metered.fetch.last.get energy.field).toNat) := by
  obtain ⟨values, hfetched⟩ := metered.fetch.fetched
  refine ⟨(hfetched.request_path metered.path hrequest energy).1, ?_⟩
  intro hret
  exact hfetched.cleared_path metered.path hrequest hret energy (energy_mem energy) sampleReads_frames
    sampleReads_nodup

-- Over a run, what was cleared is what was stored and what was lost.
theorem MeterRun.cleared {start last : Meter × Data} {fetches : List (MeteredFetch false)}
    (h : MeterRun false start fetches last) (hrequest : start.1.request = []) (hbalanced : Balanced start.1)
    (energy : Energy) :
    Balanced last.1 ∧ last.1.cleared energy = start.1.cleared energy + stored energy fetches + lost energy fetches := by
  induction h with
  | nil state => exact ⟨hbalanced, rfl⟩
  | wait meter grown data fetches last haccumulates _ ih =>
      have hgrown := balanced_accumulates meter grown haccumulates hbalanced
      obtain ⟨hlast, hcleared⟩ := ih (haccumulates.request.trans hrequest) hgrown
      refine ⟨hlast, ?_⟩
      rw [hcleared, haccumulates.cleared]
  | fetch metered fetches last _ ih =>
      obtain ⟨hafter, hread⟩ := Fetch.cleared metered hrequest energy
      obtain ⟨hlast, hcleared⟩ := ih hafter (balanced_path false _ _ _ metered.path hbalanced)
      refine ⟨hlast, ?_⟩
      have hmonotone := cleared_le_path false _ _ _ metered.path energy
      rw [stored, lost, hcleared]
      by_cases hret : metered.fetch.ret = 0
      · have hsuccess := hread hret
        rw [if_pos hret, if_pos hret]
        simp only
        omega
      · rw [if_neg hret, if_neg hret]
        simp only
        omega

end Account

-- What the successful fetches stored, what the chip still holds and what it
-- cleared during failed fetches is all the energy there was.
theorem energy_accounted (start last : Meter × Data) (fetches : List (MeteredFetch false)) (hstarted : Started start.1)
    (hrun : MeterRun false start fetches last) (energy : Energy) :
    stored energy fetches + (last.1.held energy).toNat + lost energy fetches = last.1.total energy := by
  have hbalanced : Balanced start.1 := by
    intro energy
    rw [hstarted.total, hstarted.cleared]
    rfl
  obtain ⟨hlast, hcleared⟩ := hrun.cleared hstarted.request hbalanced energy
  have htotal := hlast energy
  have hzero := hstarted.cleared energy
  omega

section Runs

-- A meter that hears everything, accumulates nothing, and answers 1 for the
-- other registers.
def meterStep (late : Bool) (meter : Meter) (event : UartEvent) : Option Meter :=
  let answer (energy : Energy) : Meter := { meter with
    held := Function.update meter.held energy 0
    cleared := Function.update meter.cleared energy (meter.cleared energy + (meter.held energy).toNat)
    request := []
    coming := meter.older late ++ [lowByte (meter.held energy), highByte (meter.held energy), 0x00#8] }
  match event with
  | ⟨.pollOut byte, _⟩ =>
      if meter.request.length < 2 then some { meter with request := meter.request ++ [byte] }
      else if meter.request ++ [byte] = readFrame Energy.positive.addr then some (answer .positive)
      else if meter.request ++ [byte] = readFrame Energy.negative.addr then some (answer .negative)
      else some { meter with request := [], coming := meter.older late ++ [0x01#8, 0x00#8, 0x00#8] }
  | ⟨.pollIn, some byte⟩ =>
      match meter.coming with
      | [] => none
      | first :: rest => if first = byte then some { meter with coming := rest } else none
  | _ => some meter

theorem meterStep_advance (late : Bool) (meter : Meter) (event : UartEvent) (next : Meter)
    (h : meterStep late meter event = some next) : meterAdvance late meter event next := by
  refine ⟨meter, ⟨fun _ => rfl, fun _ => Nat.le_refl _, rfl, rfl, rfl⟩, ?_⟩
  have hold : (meter.older late).Sublist (meter.older late) := List.Sublist.refl _
  obtain ⟨op, reply⟩ := event
  cases op with
  | pollOut byte =>
      simp only [meterStep] at h
      simp only
      split_ifs at h with hshort hpositive hnegative
      · rw [if_pos hshort]
        exact (Option.some.inj h).symm
      · rw [if_neg hshort, ← Option.some.inj h]
        exact .energy .positive _ _ hold hpositive
      · rw [if_neg hshort, ← Option.some.inj h]
        exact .energy .negative _ _ hold hnegative
      · rw [if_neg hshort, ← Option.some.inj h]
        refine .other _ _ hold ?_
        intro energy
        cases energy with
        | positive => exact hpositive
        | negative => exact hnegative
  | pollIn =>
      cases reply with
      | some byte =>
          simp only [meterStep] at h
          split at h
          · cases h
          · rename_i first rest hcoming
            split_ifs at h with hbyte
            cases hbyte
            exact ⟨[], rest, hcoming, (Option.some.inj h).symm⟩
      | none => exact (Option.some.inj h).symm
  | _ => exact (Option.some.inj h).symm

-- What is left of the positive energy: held, accumulated and cleared.
def positiveAccount (meter : Meter) : Nat × Nat × Nat :=
  ((meter.held .positive).toNat, meter.total .positive, meter.cleared .positive)

theorem exists_metered (late : Bool) (fetch : Fetch) (meter : Meter) (account : Nat × Nat × Nat)
    (h : (fetch.run.trace.foldlM (meterStep late) meter).map positiveAccount = some account) :
    ∃ metered : MeteredFetch late, metered.fetch = fetch ∧ metered.before = meter ∧
      positiveAccount metered.after = account := by
  obtain ⟨after, hafter, haccount⟩ := Option.map_eq_some_iff.mp h
  exact ⟨⟨fetch, meter, after, (path_of_foldlM _ _ hafter).mono _ (meterStep_advance late)⟩, rfl, rfl, haccount⟩

-- Polls of a read that gets its three bytes at once.
def pollsOf (lsb : Byte) : List (Option Byte) := [none, some lsb, some 0x00#8, some 0x00#8]

-- The last of the sixteen reads times out.
def lastReadFails : Fetch where
  rounds := 8
  start := Data.initial
  run := (sampleFetch 8 Data.initial).play Script.respond
    ⟨(List.replicate 15 (pollsOf 0x01#8)).flatten, List.replicate 60 0 ++ [0, 100]⟩
  ret := - EIO
  last := ⟨1, 1, 1, 1, 1, 1, 1, 1, 1, 1, 1, 1, 1, 1, 1, 0⟩
  returned := by decide +kernel

-- The first read times out, its answer being late.
def firstReadFails : Fetch where
  rounds := 8
  start := Data.initial
  run := (sampleFetch 8 Data.initial).play Script.respond ⟨[none], [0, 100]⟩
  ret := - EIO
  last := Data.initial
  returned := by decide +kernel

-- Every read gets the answer to the one before it.
def shiftedFetch : Fetch where
  rounds := 8
  start := Data.initial
  run := (sampleFetch 8 Data.initial).play Script.respond
    ⟨(List.replicate 15 (pollsOf 0x01#8)).flatten ++ pollsOf 0x00#8, List.replicate 64 0⟩
  ret := 0
  last := ⟨1, 1, 1, 1, 1, 1, 1, 1, 1, 1, 1, 1, 1, 1, 1, 0⟩
  returned := by decide +kernel

def meterHolding (amount : Word16) : Meter where
  held := fun _ => amount
  total := fun _ => amount.toNat
  cleared := fun _ => 0
  request := []
  coming := []

theorem meterHolding_started (amount : Word16) : Started (meterHolding amount) := ⟨rfl, fun _ => rfl, fun _ => rfl⟩

theorem exists_last_read_fails (late : Bool) : ∃ metered : MeteredFetch late, metered.fetch = lastReadFails ∧
    metered.before = meterHolding 1 ∧ positiveAccount metered.after = (0, 1, 1) := by
  cases late with
  | false => exact exists_metered false lastReadFails (meterHolding 1) (0, 1, 1) (by decide +kernel)
  | true => exact exists_metered true lastReadFails (meterHolding 1) (0, 1, 1) (by decide +kernel)

theorem exists_first_read_late : ∃ first second : MeteredFetch true, first.fetch = firstReadFails ∧
    second.fetch = shiftedFetch ∧ first.before = meterHolding 0 ∧ second.before = first.after ∧
      positiveAccount second.after = (0, 0, 0) := by
  have hrun : ((firstReadFails.run.trace ++ shiftedFetch.run.trace).foldlM (meterStep true) (meterHolding 0)).map
      positiveAccount = some (0, 0, 0) := by decide +kernel
  obtain ⟨after, hafter, haccount⟩ := Option.map_eq_some_iff.mp hrun
  rw [List.foldlM_append] at hafter
  obtain ⟨middle, hfirst, hsecond⟩ := Option.bind_eq_some_iff.mp hafter
  exact ⟨⟨firstReadFails, _, middle, (path_of_foldlM _ _ hfirst).mono _ (meterStep_advance true)⟩,
    ⟨shiftedFetch, middle, after, (path_of_foldlM _ _ hsecond).mono _ (meterStep_advance true)⟩,
    rfl, rfl, rfl, rfl, haccount⟩

-- One unit is read, and the fetch then fails.
theorem energy_accounted_last_read_fails : ∃ (metered : MeteredFetch false) (last : Meter × Data),
    metered.fetch = lastReadFails ∧ MeterRun false (metered.before, metered.fetch.start) [metered] last ∧
      stored .positive [metered] + (last.1.held .positive).toNat + lost .positive [metered] =
        last.1.total .positive := by
  obtain ⟨metered, hfetch, hbefore, -⟩ := exists_last_read_fails false
  have hrun : MeterRun false (metered.before, metered.fetch.start) [metered] (metered.after, metered.fetch.last) :=
    .fetch metered [] _ (.nil _)
  exact ⟨metered, _, hfetch, hrun,
    energy_accounted _ _ [metered] (hbefore ▸ meterHolding_started 1) hrun .positive⟩

-- A fetch that fails after its read of 40H loses the unit it had read. When an
-- answer comes after the next request, the values move to other fields and not
-- even the account with the losses is right.
theorem energy_lost :
    (¬∀ (start last : Meter × Data) (fetches : List (MeteredFetch true)), Started start.1 →
      MeterRun true start fetches last → ∀ energy,
        stored energy fetches + (last.1.held energy).toNat = last.1.total energy) ∧
    ¬∀ (start last : Meter × Data) (fetches : List (MeteredFetch true)), Started start.1 →
      MeterRun true start fetches last → ∀ energy,
        stored energy fetches + (last.1.held energy).toNat + lost energy fetches = last.1.total energy := by
  constructor
  · intro h
    obtain ⟨metered, hfetch, hbefore, haccount⟩ := exists_last_read_fails true
    have hlaw := h _ _ [metered] (hbefore ▸ meterHolding_started 1) (.fetch metered [] _ (.nil _)) .positive
    obtain ⟨hheld, htotal, -⟩ : (metered.after.held .positive).toNat = 0 ∧ metered.after.total .positive = 1 ∧
        metered.after.cleared .positive = 1 := by simpa [positiveAccount] using haccount
    have hret : ¬metered.fetch.ret = 0 := by
      rw [hfetch]
      decide
    rw [stored, if_neg hret, stored] at hlaw
    simp only at hlaw
    omega
  · intro h
    obtain ⟨first, second, hfirst, hsecond, hbefore, hbetween, haccount⟩ := exists_first_read_late
    have hstart : (first.after, first.fetch.last) = (second.before, second.fetch.start) := by
      rw [hbetween, hfirst, hsecond]
      rfl
    have hrun : MeterRun true (first.before, first.fetch.start) [first, second] (second.after, second.fetch.last) := by
      refine .fetch first [second] _ ?_
      rw [hstart]
      exact .fetch second [] _ (.nil _)
    have hlaw := h _ _ _ (hbefore ▸ meterHolding_started 0) hrun .positive
    obtain ⟨hheld, htotal, hcleared⟩ : (second.after.held .positive).toNat = 0 ∧ second.after.total .positive = 0 ∧
        second.after.cleared .positive = 0 := by simpa [positiveAccount] using haccount
    have hstored : stored .positive [first, second] = 1 := by
      rw [stored, stored, stored, hfirst, hsecond]
      rfl
    simp only at hlaw
    omega

end Runs

end TJ3Firmware
