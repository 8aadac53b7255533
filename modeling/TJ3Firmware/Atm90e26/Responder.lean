import TJ3Firmware.Atm90e26.Energy

namespace TJ3Firmware

open Library.Memory Library.Interaction

section Responder

-- The chip and its link: what the registers hold, what was answered so far, the
-- bytes of an unfinished request, and the answer bytes on their way.
structure Responder where
  registers : Byte → Word16
  answered : List (Byte × Word16)
  request : List Byte
  coming : List Byte

-- The bytes of older answers that may still come after a request, which is none
-- of them unless late bytes are allowed.
def Responder.older (chip : Responder) (late : Bool) : List Byte := if late then chip.coming else []

-- The end of a request. It is lost, or the chip answers with what the register
-- holds.
inductive Heard (late : Bool) (frame : List Byte) (chip : Responder) : Responder → Prop
  | lost (old : List Byte) (hold : old.Sublist (chip.older late)) :
      Heard late frame chip { chip with request := [], coming := old }
  | read (addr checksum : Byte) (old : List Byte) (hold : old.Sublist (chip.older late)) (haddr : addr < 0x80#8)
      (hframe : frame = readFrame addr) :
      Heard late frame chip { chip with
        answered := chip.answered ++ [(addr, chip.registers addr)]
        request := []
        coming := old ++ [lowByte (chip.registers addr), highByte (chip.registers addr), checksum] }

-- Before any call the registers may change. A poll may skip bytes that were
-- lost.
def responderAdvance (late : Bool) (chip : Responder) (event : UartEvent) (next : Responder) : Prop :=
  ∃ registers,
    match event with
    | ⟨.pollOut byte, _⟩ =>
        if chip.request.length < 2 then
          next = { chip with registers := registers, request := chip.request ++ [byte] }
        else Heard late (chip.request ++ [byte]) { chip with registers := registers } next
    | ⟨.pollIn, some byte⟩ => ∃ lost rest, chip.coming = lost ++ byte :: rest ∧
        next = { chip with registers := registers, coming := rest }
    | _ => next = { chip with registers := registers }

variable {late : Bool} {chip next : Responder}

-- While the driver listens nothing is answered, and what it gets was on its way.
theorem responder_listening_step (event : UartEvent) (h : responderAdvance late chip event next) (hlistening : Listening event.op) :
    next.answered = chip.answered ∧ next.request = chip.request ∧
      (delivered [event] ++ next.coming).Sublist chip.coming := by
  obtain ⟨registers, heffect⟩ := h
  obtain ⟨op, reply⟩ := event
  cases op with
  | pollOut byte => exact absurd hlistening id
  | pollIn =>
      cases reply with
      | some byte =>
          obtain ⟨lost, rest, hcoming, rfl⟩ := heffect
          rw [hcoming]
          exact ⟨rfl, rfl, List.sublist_append_right lost (byte :: rest)⟩
      | none =>
          cases heffect
          exact ⟨rfl, rfl, List.Sublist.refl _⟩
  | _ =>
      cases heffect
      exact ⟨rfl, rfl, List.Sublist.refl _⟩

theorem responder_listening (trace : List UartEvent) (h : Path (responderAdvance late) chip trace next)
    (hlistening : ∀ event ∈ trace, Listening event.op) :
    next.answered = chip.answered ∧ next.request = chip.request ∧
      (delivered trace ++ next.coming).Sublist chip.coming := by
  induction h with
  | nil chip => exact ⟨rfl, rfl, List.Sublist.refl _⟩
  | cons chip middle last event trace step _ ih =>
      obtain ⟨hevent, htrace⟩ := List.forall_mem_cons.mp hlistening
      obtain ⟨hanswered, hrequest, hcoming⟩ := responder_listening_step event step hevent
      obtain ⟨hanswered', hrequest', hcoming'⟩ := ih htrace
      refine ⟨hanswered'.trans hanswered, hrequest'.trans hrequest, ?_⟩
      have hsplit : delivered (event :: trace) = delivered [event] ++ delivered trace := delivered_append [event] trace
      rw [hsplit, List.append_assoc]
      exact (hcoming'.append_left (delivered [event])).trans hcoming

-- A request of three bytes reaches the chip as a whole or not at all.
theorem responder_requested (first second third : Byte)
    (h : Path (responderAdvance late) chip (sent [first, second, third]) next) (hrequest : chip.request = []) :
    ∃ asked, asked.answered = chip.answered ∧ Heard late [first, second, third] asked next := by
  obtain ⟨one, ⟨registers, hone⟩, h⟩ := (path_cons_iff _ _).mp h
  obtain ⟨two, ⟨registers', htwo⟩, h⟩ := (path_cons_iff _ _).mp h
  obtain ⟨three, ⟨registers'', hthree⟩, h⟩ := (path_cons_iff _ _).mp h
  cases path_nil_iff.mp h
  simp only [hrequest, List.length_nil, Nat.zero_lt_two, if_true, List.nil_append] at hone
  subst hone
  simp only [List.length_singleton, Nat.one_lt_two, if_true, List.singleton_append] at htwo
  subst htwo
  simp only [List.length_cons, List.length_nil, Nat.reduceAdd, Nat.lt_irrefl, if_false] at hthree
  exact ⟨⟨registers'', chip.answered, [first, second], chip.coming⟩, rfl, hthree⟩

-- Bit 7 of an address only says that it is read.
theorem address_of_readBit : ∀ addr : Byte, addr < 0x80#8 → (addr ||| 0x80#8) &&& 0x7F#8 = addr := by decide +kernel

theorem readFrame_injective (addr other : Byte) (haddr : addr < 0x80#8) (hother : other < 0x80#8)
    (h : readFrame addr = readFrame other) : addr = other := by
  have hset : addr ||| 0x80#8 = other ||| 0x80#8 := (List.cons.inj (List.cons.inj h).2).1
  rw [← address_of_readBit addr haddr, ← address_of_readBit other hother, hset]

-- What one read has the chip answer, when no late bytes come. Three bytes that
-- come back are the answer.
theorem responder_exchange {addr : Byte} (exchange : ReadExchange addr) (haddr : addr < 0x80#8)
    (h : Path (responderAdvance false) chip exchange.trace next) (hrequest : chip.request = []) :
    next.request = [] ∧
      ((delivered exchange.answer = [] ∧ next.answered = chip.answered) ∨
        ∃ value, next.answered = chip.answered ++ [(addr, value)] ∧ ∀ lsb msb checksum,
          delivered exchange.answer = [lsb, msb, checksum] → value = word16 lsb msb) := by
  have hsplit : exchange.trace = (exchange.stale.map polled ++ [emptyPoll]) ++
      (sent (readFrame addr) ++ exchange.answer) := by simp [ReadExchange.trace]
  rw [hsplit] at h
  obtain ⟨flushed, hflush, hrest⟩ := (path_append _ _).mp h
  obtain ⟨heard, hsent, hanswer⟩ := (path_append _ _).mp hrest
  obtain ⟨hflushed, hflushedRequest, -⟩ := responder_listening _ hflush (flush_listening exchange.stale)
  obtain ⟨asked, hasked, hanswers⟩ := responder_requested _ _ _ hsent (hflushedRequest.trans hrequest)
  obtain ⟨hanswered, hlastRequest, hcoming⟩ := responder_listening _ hanswer exchange.listening
  rw [hanswered, hlastRequest, ← hflushed, ← hasked]
  cases hanswers with
  | lost old hold =>
      rw [Responder.older, if_neg Bool.false_ne_true, List.sublist_nil] at hold
      rw [hold] at hcoming
      obtain ⟨hnone, -⟩ := List.append_eq_nil_iff.mp (List.sublist_nil.mp hcoming)
      exact ⟨rfl, Or.inl ⟨hnone, rfl⟩⟩
  | read other checksum old hold hother hframe =>
      rw [Responder.older, if_neg Bool.false_ne_true, List.sublist_nil] at hold
      cases readFrame_injective addr other haddr hother hframe
      refine ⟨rfl, Or.inr ⟨asked.registers addr, rfl, ?_⟩⟩
      intro lsb msb checksum' hdelivered
      -- three bytes of an answer of three are the answer
      rw [hdelivered, hold, List.nil_append] at hcoming
      have hall := ((List.sublist_append_left _ _).trans hcoming).eq_of_length rfl
      cases hall
      exact (word16_lowByte_highByte _).symm

-- The answers that a sequence of reads has used, by what was stored of them.
theorem Fetched.answered {reads : List (Byte × Field)} {data last : Data} {trace : List UartEvent}
    {values : List (Field × Word16)} {ret : Int} (h : Fetched reads data trace values ret last)
    (hreads : ∀ entry ∈ reads, entry.1 < 0x80#8) (hpath : Path (responderAdvance false) chip trace next)
    (hrequest : chip.request = []) (hnodup : (reads.map Prod.snd).Nodup) :
    next.request = [] ∧ ∃ answers, next.answered = chip.answered ++ answers ∧
      answers.map Prod.fst <+: reads.map Prod.fst ∧
      (ret = 0 → answers = reads.map fun entry => (entry.1, last.get entry.2)) := by
  induction h generalizing chip with
  | done data =>
      cases hpath
      exact ⟨hrequest, [], by simp⟩
  | read addr field rest data last exchange lsb msb checksum trace values ret hdelivered hmore ih =>
      obtain ⟨middle, hfirst, hrest⟩ := (path_append _ _).mp hpath
      obtain ⟨haddr, haddrs⟩ := List.forall_mem_cons.mp hreads
      rw [List.map_cons, List.nodup_cons] at hnodup
      obtain ⟨hmiddle, ⟨hnone, -⟩ | ⟨value, hanswered, hvalue⟩⟩ := responder_exchange exchange haddr hfirst hrequest
      · rw [hdelivered] at hnone
        cases hnone
      · obtain ⟨hnext, answers, hlast, hfront, hall⟩ := ih haddrs hrest hmiddle hnodup.2
        refine ⟨hnext, (addr, value) :: answers, ?_, ?_, ?_⟩
        · rw [hlast, hanswered, List.append_assoc, List.singleton_append]
        · rw [List.map_cons, List.map_cons]
          exact (List.prefix_cons_inj addr).mpr hfront
        · intro hret
          -- the later reads are of other fields
          have hkept := hmore.get_of_not_mem field hnodup.1
          rw [Data.get_set, if_pos rfl] at hkept
          rw [List.map_cons, hall hret, hkept, hvalue lsb msb checksum hdelivered]
  | timeout addr field rest data exchange hshort =>
      obtain ⟨haddr, -⟩ := List.forall_mem_cons.mp hreads
      obtain ⟨hnext, ⟨-, hanswered⟩ | ⟨value, hanswered, -⟩⟩ := responder_exchange exchange haddr hpath hrequest
      · exact ⟨hnext, [], by rw [hanswered, List.append_nil], List.nil_prefix, fun hret => by cases hret⟩
      · refine ⟨hnext, [(addr, value)], hanswered, ?_, fun hret => by cases hret⟩
        exact (List.prefix_cons_inj addr).mpr List.nil_prefix

end Responder

end TJ3Firmware
