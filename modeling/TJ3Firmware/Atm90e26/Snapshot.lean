import TJ3Firmware.Atm90e26.Reading

namespace TJ3Firmware

open Library.Memory Library.Interaction

section Latest

-- The last value listed for a field.
def latest (field : Field) (values : List (Field × Word16)) : Option Word16 := values.reverse.lookup field

theorem latest_append (field : Field) (first second : List (Field × Word16)) (default : Word16) :
    (latest field (first ++ second)).getD default = (latest field second).getD ((latest field first).getD default) := by
  rw [latest, List.reverse_append, List.lookup_append, Option.getD_or]
  rfl

theorem latest_singleton (field other : Field) (value default : Word16) :
    (latest field [(other, value)]).getD default = if field = other then value else default := by
  rw [latest, List.reverse_singleton, List.lookup_cons]
  by_cases hfield : field = other
  · simp [hfield]
  · rw [beq_eq_false_iff_ne.mpr hfield, if_neg hfield]
    rfl

theorem Fetched.get_eq_latest {reads : List (Byte × Field)} {data last : Data} {trace : List UartEvent}
    {values : List (Field × Word16)} {ret : Int} (h : Fetched reads data trace values ret last) (field : Field) :
    last.get field = (latest field values).getD (data.get field) := by
  induction h with
  | done data => rfl
  | read addr other rest data last exchange lsb msb checksum trace values ret _ _ ih =>
      rw [ih, ← List.singleton_append, latest_append, latest_singleton, Data.get_set]
  | timeout => rfl

end Latest

section Reads

-- The values were read one after another from the registers of the first
-- fields, up to the read that failed.
theorem Fetched.values_read {reads : List (Byte × Field)} {data last : Data} {trace : List UartEvent}
    {values : List (Field × Word16)} {ret : Int} (h : Fetched reads data trace values ret last) :
    values.map Prod.fst <+: reads.map Prod.snd ∧
      ∀ value ∈ values, ∃ addr, (addr, value.1) ∈ reads ∧ ReadFrom addr trace value.2 := by
  induction h with
  | done data => exact ⟨List.prefix_rfl, List.forall_mem_nil _⟩
  | read addr field rest data last exchange lsb msb checksum trace values ret hdelivered _ ih =>
      obtain ⟨hfront, hread⟩ := ih
      refine ⟨(List.prefix_cons_inj field).mpr hfront, List.forall_mem_cons.mpr ⟨?_, ?_⟩⟩
      · refine ⟨addr, List.mem_cons_self, [], trace, exchange, lsb, msb, checksum, by simp, hdelivered,
          exchange.fresh, ?_⟩
        rw [toNat_word16]
      · intro value hvalue
        obtain ⟨other, hother, before, after, answered, b0, b1, b2, htrace, hrest⟩ := hread value hvalue
        exact ⟨other, List.mem_cons_of_mem _ hother, exchange.trace ++ before, after, answered, b0, b1, b2,
          by simp [htrace], hrest⟩
  | timeout => exact ⟨List.nil_prefix, List.forall_mem_nil _⟩

theorem Fetched.ret_eq_zero_iff {reads : List (Byte × Field)} {data last : Data} {trace : List UartEvent}
    {values : List (Field × Word16)} {ret : Int} (h : Fetched reads data trace values ret last) :
    ret = 0 ↔ values.map Prod.fst = reads.map Prod.snd := by
  induction h with
  | done data => exact iff_of_true rfl rfl
  | read addr field rest data last exchange lsb msb checksum trace values ret _ _ ih =>
      rw [ih, List.map_cons, List.map_cons, List.cons_inj_right]
  | timeout => exact iff_of_false (by decide) (List.cons_ne_nil _ _).symm

theorem sampleReads_registers : ∀ entry ∈ sampleReads, entry.1 = registerOf entry.2 := by decide

-- What a fetch read and what it returned and stored. When it fails, the read
-- after the last value has timed out.
structure Fetch.Reads (fetch : Fetch) (values : List (Field × Word16)) : Prop where
  order : values.map Prod.fst <+: sampleReads.map Prod.snd
  read : ∀ value ∈ values, ReadFrom (registerOf value.1) fetch.run.trace value.2
  success : fetch.ret = 0 ↔ values.map Prod.fst = sampleReads.map Prod.snd
  failure : fetch.ret ≠ 0 → fetch.ret = - EIO ∧
    TimedOut fetch.start fetch.last sampleReads (values.map Prod.fst) fetch.run.trace
  stored : ∀ field, fetch.last.get field = (latest field values).getD (fetch.start.get field)

theorem Fetch.reads (fetch : Fetch) : ∃ values, fetch.Reads values := by
  obtain ⟨values, hfetched⟩ := fetch.fetched
  obtain ⟨horder, hread⟩ := hfetched.values_read
  refine ⟨values, horder, ?_, hfetched.ret_eq_zero_iff, ?_, hfetched.get_eq_latest⟩
  · intro value hvalue
    obtain ⟨addr, hentry, hfrom⟩ := hread value hvalue
    have haddr : addr = registerOf value.1 := sampleReads_registers _ hentry
    rw [← haddr]
    exact hfrom
  · intro hret
    rcases hfetched.ret_cases sampleReads_nodup with hzero | hfailed
    · exact absurd hzero hret
    · exact hfailed

end Reads

-- Fetches one after another, each on the data the one before it left.
inductive History : Data → List Fetch → Data → Prop
  | nil (data : Data) : History data [] data
  | cons (fetch : Fetch) (rest : List Fetch) (last : Data) (more : History fetch.last rest last) :
      History fetch.start (fetch :: rest) last

theorem History.get_eq_latest {data last : Data} {fetches : List Fetch} (h : History data fetches last) :
    ∃ values, List.Forall₂ Fetch.Reads fetches values ∧
      ∀ field, last.get field = (latest field values.flatten).getD (data.get field) := by
  induction h with
  | nil data => exact ⟨[], .nil, fun _ => rfl⟩
  | cons fetch rest last _ ih =>
      obtain ⟨values, hall, hlast⟩ := ih
      obtain ⟨first, hfirst⟩ := fetch.reads
      refine ⟨first :: values, .cons hfirst hall, ?_⟩
      intro field
      rw [hlast, hfirst.stored, List.flatten_cons, latest_append]

-- After any number of fetches a field holds what was last read from its
-- register, whether the fetch went on to succeed or not, or its initial zero.
theorem fields_hold_latest_read (fetches : List Fetch) (last : Data) (h : History Data.initial fetches last) :
    ∃ values, List.Forall₂ Fetch.Reads fetches values ∧
      ∀ field, last.get field = (latest field values.flatten).getD 0 := by
  obtain ⟨values, hall, hlast⟩ := h.get_eq_latest
  refine ⟨values, hall, ?_⟩
  intro field
  have hzero : Data.initial.get field = 0 := by cases field <;> rfl
  rw [hlast, hzero]

section Example

-- The voltage is read as 5, then the current times out.
def timedOutFetch : Fetch where
  rounds := 8
  start := Data.initial
  run := (sampleFetch 8 Data.initial).play Script.respond
    ⟨[none, some 0x05#8, some 0x00#8, some 0x05#8], [0, 0, 0, 0, 0, 100]⟩
  ret := - EIO
  last := { Data.initial with voltage := 5 }
  returned := by decide +kernel

theorem fields_hold_latest_read_timedOut : ∃ values, List.Forall₂ Fetch.Reads [timedOutFetch] values ∧
    ∀ field, timedOutFetch.last.get field = (latest field values.flatten).getD 0 :=
  fields_hold_latest_read [timedOutFetch] timedOutFetch.last (.cons timedOutFetch [] _ (.nil _))

-- The new voltage stays, beside fifteen fields that were not read.
theorem failed_fetch_changes_data :
    ¬∀ (fetches : List Fetch) (last : Data), History Data.initial fetches last →
      (last = Data.initial ∨ ∃ fetch ∈ fetches, fetch.ret = 0 ∧ last = fetch.last) ∧
        ∀ fetch ∈ fetches, fetch.ret < 0 → fetch.last = fetch.start := by
  intro h
  have hhistory : History Data.initial [timedOutFetch] timedOutFetch.last := .cons timedOutFetch [] _ (.nil _)
  have hsame := (h _ _ hhistory).2 timedOutFetch (List.mem_singleton.mpr rfl) (by decide)
  exact absurd (congrArg Data.voltage hsame) (by decide)

end Example

end TJ3Firmware
