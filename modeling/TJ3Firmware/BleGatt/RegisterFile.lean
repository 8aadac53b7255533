import TJ3Firmware.BleGatt.Characteristics
import TJ3Firmware.BleGatt.IndexSafety
import TJ3Firmware.FsHandler.LogRecords

namespace TJ3Firmware

open Library.Memory Library.Interaction Library.Register

section Spec

-- The write to Meter Config that an operation makes, if it makes one.
def configWrite : GattOp → Option (Write Byte)
  | .write .meterConfig buf offset =>
      if offset.toNat + buf.bytes.length ≤ METER_CONFIG_SIZE then some ⟨offset.toNat, buf.bytes⟩ else none
  | _ => none

-- The value that the latest of these writes has left at a position, or 0.
def configAt (ops : List GattOp) (position : Nat) : Byte := latest 0x00#8 (ops.filterMap configWrite) position

-- What is assumed of bt_gatt_attr_read.
def CopiesFrom (attrRead : AttrRead) : Prop := ∀ value len offset, offset.toNat ≤ value.length →
  attrRead value len offset =
    ⟨(min len.toNat (value.length - offset.toNat) : Nat), (value.drop offset.toNat).take len.toNat⟩

-- Meter Config is as these operations have left it.
def ConfigHolds (data : StaticData) (ops : List GattOp) : Prop :=
  Holds 0x00#8 data.meterConfig (ops.filterMap configWrite)

end Spec

section Step

-- What one operation does to Meter Config.
structure ConfigStep (attrRead : AttrRead) (op : GattOp) (data : StaticData) (reply : GattReply)
    (next : StaticData) : Prop where
  kept : configWrite op = none → next.meterConfig = data.meterConfig
  written : ∀ write, configWrite op = some write →
    data.meterConfig.copy write.start write.values = .ok next.meterConfig
  read : ∀ len offset, op = .read .meterConfig len offset → reply = attrRead data.meterConfig.cells len offset
  answer : ∀ buf offset, op = .write .meterConfig buf offset → reply.ret =
    if offset.toNat + buf.bytes.length ≤ METER_CONFIG_SIZE then (buf.bytes.length : Int)
    else btGattErr BT_ATT_ERR_INVALID_OFFSET

variable {attrRead : AttrRead} {op : GattOp} {data next : StaticData} {reply : GattReply}

theorem ConfigStep.holds (h : ConfigStep attrRead op data reply next) (ops : List GattOp)
    (hdata : ConfigHolds data ops) : ConfigHolds next (ops ++ [op]) := by
  unfold ConfigHolds at hdata ⊢
  rw [List.filterMap_append]
  cases hwrite : configWrite op with
  | none =>
      rw [h.kept hwrite]
      simpa [hwrite] using hdata
  | some write =>
      have hcopy := h.written write hwrite
      have hroom : write.start + write.values.length ≤ METER_CONFIG_SIZE := by
        unfold configWrite at hwrite
        split at hwrite
        · split at hwrite
          · rename_i hfits
            cases hwrite
            exact hfits
          · cases hwrite
        · cases hwrite
      obtain ⟨config, hconfig, hholds⟩ := hdata.copy write hroom
      rw [hcopy] at hconfig
      cases hconfig
      simpa [hwrite] using hholds

-- Another characteristic, whose handler leaves Meter Config alone.
theorem configStep_other (h : configWrite op = none) (hread : ∀ len offset, op ≠ .read .meterConfig len offset)
    (hwrite : ∀ buf offset, op ≠ .write .meterConfig buf offset) (hkept : next.meterConfig = data.meterConfig) :
    ConfigStep attrRead op data reply next where
  kept := fun _ => hkept
  written := fun write hsome => absurd (h.symm.trans hsome) (by simp)
  read := fun len offset hop => absurd hop (hread len offset)
  answer := fun buf offset hop => absurd hop (hwrite buf offset)

end Step

section Handlers

theorem WriteBuf.toNat_len (buf : WriteBuf) : buf.len.toNat = buf.bytes.length := by
  rw [WriteBuf.len, BitVec.toNat_ofNat, Nat.mod_eq_of_lt buf.short]

theorem WriteBuf.readRange (buf : WriteBuf) : Ptr.readRange ⟨buf.bytes, 0⟩ buf.len.toNat = .ok buf.bytes := by
  rw [buf.toNat_len, Ptr.readRange_eq _ _ _ (by omega), List.drop_zero, List.take_length]

-- The sum of the two 16-bit values does not wrap around.
theorem exceeds_iff (buf : WriteBuf) (offset : Word16) :
    offset.setWidth 32 + buf.len.setWidth 32 > BitVec.ofNat 32 METER_CONFIG_SIZE ↔
      ¬offset.toNat + buf.bytes.length ≤ METER_CONFIG_SIZE := by
  have hoffset := offset.isLt
  have hlen := buf.short
  have hsize : METER_CONFIG_SIZE = 20 := rfl
  rw [gt_iff_lt, BitVec.lt_def, BitVec.toNat_add, BitVec.toNat_setWidth, BitVec.toNat_setWidth, buf.toNat_len, hsize,
    BitVec.toNat_ofNat]
  omega

theorem writeMeterConfig_returns (attrRead : AttrRead) (buf : WriteBuf) (offset : Word16) (data : StaticData) :
    ∃ (ret : Int) (next : StaticData), writeMeterConfig buf offset data = .ok (ret, next) ∧
      ConfigStep attrRead (.write .meterConfig buf offset) data ⟨ret, []⟩ next := by
  unfold writeMeterConfig
  by_cases hfits : offset.toNat + buf.bytes.length ≤ METER_CONFIG_SIZE
  · obtain ⟨config, hcopy, -⟩ := getD_copy data.meterConfig ⟨offset.toNat, buf.bytes⟩ hfits 0x00#8
    rw [if_neg (mt (exceeds_iff buf offset).mp (not_not.mpr hfits)), buf.readRange, ok_bind, hcopy, ok_bind,
      buf.toNat_len]
    refine ⟨_, _, rfl, ?_, ?_, ?_, ?_⟩
    · intro hnone
      simp [configWrite, hfits] at hnone
    · intro write hwrite
      rw [configWrite, if_pos hfits] at hwrite
      cases hwrite
      exact hcopy
    · intro len offset hop
      cases hop
    · intro buf offset hop
      cases hop
      rw [if_pos hfits]
  · rw [if_pos ((exceeds_iff buf offset).mpr hfits)]
    refine ⟨_, _, rfl, fun _ => rfl, ?_, ?_, ?_⟩
    · intro write hwrite
      rw [configWrite, if_neg hfits] at hwrite
      cases hwrite
    · intro len offset hop
      cases hop
    · intro buf offset hop
      cases hop
      rw [if_neg hfits]

theorem writeLogFetch_returns (buf : WriteBuf) : Returns (writeLogFetch buf) fun _ => True := by
  unfold writeLogFetch
  by_cases hshort : buf.len < 2#16
  · rw [if_pos hshort]
    trivial
  · have htwo : 2 ≤ buf.bytes.length := by
      rw [BitVec.lt_def, buf.toNat_len] at hshort
      simp only [BitVec.toNat_ofNat] at hshort
      omega
    rw [if_neg hshort, Ptr.readRange_eq _ _ _ (by omega)]
    simp [btGattIndicate, perform]

theorem writeLogLevel_returns (buf : WriteBuf) (data : StaticData) :
    ∃ (ret : Int) (next : StaticData), writeLogLevel buf data = .ok (ret, next) ∧
      next.meterConfig = data.meterConfig := by
  unfold writeLogLevel
  by_cases hone : buf.len ≠ 1#16
  · rw [if_pos hone]
    exact ⟨_, _, rfl, rfl⟩
  · have hlength : buf.bytes.length = 1 := by
      rw [← buf.toNat_len, not_not.mp hone]
      rfl
    rw [if_neg hone, Ptr.read_eq_getD _ 0 0 0x00#8 (by omega), ok_bind]
    exact ⟨_, _, rfl, rfl⟩

-- The write handlers of the other characteristics.
theorem writeHandler_returns (attr : Writable) (hattr : attr ≠ .meterConfig) (buf : WriteBuf) (offset : Word16)
    (data : StaticData) : Returns (writeHandler buf offset data attr) fun result =>
      result.2.meterConfig = data.meterConfig := by
  cases attr with
  | meterConfig => exact absurd rfl hattr
  | command txBuf =>
      simp only [writeHandler, returns_bind, returns_pure]
      exact returns_mono _ _ _ (fun _ _ => trivial) (writePacket_returns txBuf buf.bytes)
  | logFetch =>
      simp only [writeHandler, returns_bind, returns_pure]
      exact returns_mono _ _ _ (fun _ _ => trivial) (writeLogFetch_returns buf)
  | logLevel =>
      obtain ⟨ret, next, hwrite, hkept⟩ := writeLogLevel_returns buf data
      rw [writeHandler, hwrite]
      exact hkept
  | clearLogs => simp [writeHandler, writeClearLogs, btGattIndicate, perform]

theorem handle_returns (attrRead : AttrRead) (op : GattOp) (data : StaticData) :
    Returns (op.handle attrRead data) fun result => ConfigStep attrRead op data result.1 result.2 := by
  cases op with
  | read attr len offset =>
      refine ⟨fun _ => rfl, ?_, ?_, ?_⟩
      · intro write hwrite
        cases hwrite
      · intro len offset hop
        cases hop
        rfl
      · intro buf offset hop
        cases hop
  | write attr buf offset =>
      by_cases hattr : attr = .meterConfig
      · subst hattr
        obtain ⟨ret, next, hwrite, hstep⟩ := writeMeterConfig_returns attrRead buf offset data
        rw [GattOp.handle, writeHandler, hwrite]
        exact hstep
      · have hnone : configWrite (.write attr buf offset) = none := by
          cases attr with
          | meterConfig => exact absurd rfl hattr
          | _ => rfl
        simp only [GattOp.handle, returns_bind, returns_pure]
        refine returns_mono _ _ _ (fun result hkept => ?_) (writeHandler_returns attr hattr buf offset data)
        refine configStep_other hnone (fun _ _ hop => by cases hop) ?_ hkept
        intro buf' offset' hop
        cases hop
        exact hattr rfl

end Handlers

section Serve

-- The operations were answered in order, each in the state that those before it
-- have left.
structure Served (attrRead : AttrRead) (before ops : List GattOp) (replies : List GattReply) (final : StaticData) :
    Prop where
  final : ConfigHolds final (before ++ ops)
  answered : ∀ index op, ops[index]? = some op → ∃ reply data next, replies[index]? = some reply ∧
    ConfigHolds data (before ++ ops.take index) ∧ ConfigStep attrRead op data reply next

theorem Served.cons {attrRead : AttrRead} {before rest : List GattOp} {op : GattOp} {replies : List GattReply}
    {reply : GattReply} {data next final : StaticData} (hdata : ConfigHolds data before)
    (hstep : ConfigStep attrRead op data reply next) (h : Served attrRead (before ++ [op]) rest replies final) :
    Served attrRead before (op :: rest) (reply :: replies) final where
  final := by
    have hfinal := h.final
    rwa [List.append_assoc] at hfinal
  answered := by
    intro index asked hasked
    cases index with
    | zero =>
        cases hasked
        refine ⟨reply, data, next, rfl, ?_, hstep⟩
        rwa [List.take_zero, List.append_nil]
    | succ index =>
        obtain ⟨reply', data', next', hreply, hholds, hstep'⟩ := h.answered index asked hasked
        refine ⟨reply', data', next', hreply, ?_, hstep'⟩
        rwa [List.append_assoc] at hholds

theorem serve_returns (attrRead : AttrRead) (ops before : List GattOp) (data : StaticData)
    (h : ConfigHolds data before) :
    Returns (serve attrRead ops data) fun result => Served attrRead before ops result.1 result.2 := by
  induction ops generalizing before data with
  | nil =>
      refine ⟨?_, fun _ _ hop => by cases hop⟩
      rwa [List.append_nil]
  | cons op rest ih =>
      rw [serve, returns_bind]
      refine returns_mono _ _ _ ?_ (handle_returns attrRead op data)
      intro ⟨reply, next⟩ hstep
      rw [returns_bind]
      refine returns_mono _ _ _ ?_ (ih (before ++ [op]) next (hstep.holds before h))
      intro ⟨replies, final⟩ hserved
      exact hserved.cons h hstep

theorem configHolds_initial : ConfigHolds StaticData.initial [] := holds_fresh _

end Serve

-- Over any operations, a read of Meter Config gives for each position the value
-- of the latest accepted write that covers it. A write is accepted when it
-- fits, and nothing else changes the bytes.
theorem meter_config_faithful (attrRead : AttrRead) (hcopies : CopiesFrom attrRead) (ops : List GattOp)
    (run : Run (serve attrRead ops StaticData.initial)) :
    (∃ (replies : List GattReply) (final : StaticData), run.outcome = .ok (replies, final) ∧
      (∀ (index : Nat) (len offset : Word16), ops[index]? = some (GattOp.read .meterConfig len offset) →
        offset.toNat ≤ METER_CONFIG_SIZE →
        replies[index]? = some ⟨(min len.toNat (METER_CONFIG_SIZE - offset.toNat) : Nat),
          (List.range (min len.toNat (METER_CONFIG_SIZE - offset.toNat))).map fun i =>
            configAt (ops.take index) (offset.toNat + i)⟩) ∧
      (∀ (index : Nat) (buf : WriteBuf) (offset : Word16), ops[index]? = some (GattOp.write .meterConfig buf offset) →
        ∃ reply : GattReply, replies[index]? = some reply ∧ reply.ret =
          if offset.toNat + buf.bytes.length ≤ METER_CONFIG_SIZE then (buf.bytes.length : Int)
          else btGattErr BT_ATT_ERR_INVALID_OFFSET) ∧
      ∀ position, final.meterConfig.cells.getD position 0x00#8 = configAt ops position) ∧
    ∀ (op : GattOp) (data : StaticData) (single : Run (op.handle attrRead data)), configWrite op = none →
      ∃ (reply : GattReply) (next : StaticData), single.outcome = .ok (reply, next) ∧
        next.meterConfig.cells = data.meterConfig.cells := by
  constructor
  · obtain ⟨⟨replies, final⟩, houtcome, hserved⟩ :=
      returns_sound _ _ (serve_returns attrRead ops [] StaticData.initial configHolds_initial) run
    refine ⟨replies, final, houtcome, ?_, ?_, hserved.final⟩
    · intro index len offset hop hoffset
      obtain ⟨reply, data, next, hreply, hholds, hstep⟩ := hserved.answered index _ hop
      have hsize := data.meterConfig.length_cells
      rw [hreply, hstep.read len offset rfl, hcopies _ _ _ (by omega), hsize, Holds.read hholds]
      rfl
    · intro index buf offset hop
      obtain ⟨reply, data, next, hreply, -, hstep⟩ := hserved.answered index _ hop
      exact ⟨reply, hreply, hstep.answer buf offset rfl⟩
  · intro op data single hnone
    obtain ⟨⟨reply, next⟩, houtcome, hstep⟩ := returns_sound _ _ (handle_returns attrRead op data) single
    refine ⟨reply, next, houtcome, ?_⟩
    rw [hstep.kept hnone]

section Example

-- bt_gatt_attr_read also refuses an offset past the end of the value.
def btGattAttrRead : AttrRead := fun value len offset =>
  if value.length < offset.toNat then ⟨btGattErr BT_ATT_ERR_INVALID_OFFSET, []⟩
  else ⟨(min len.toNat (value.length - offset.toNat) : Nat), (value.drop offset.toNat).take len.toNat⟩

theorem btGattAttrRead_copiesFrom : CopiesFrom btGattAttrRead := by
  intro value len offset hoffset
  exact if_neg (by omega)

-- Two writes overlap, a third does not fit, and the logs are cleared.
def overlapping : List GattOp :=
  [.write .meterConfig ⟨[0x01#8, 0x02#8, 0x03#8], by decide⟩ 5#16, .write .clearLogs ⟨[], by decide⟩ 0#16,
    .write .meterConfig ⟨[0x09#8, 0x09#8], by decide⟩ 19#16, .write .meterConfig ⟨[0x07#8], by decide⟩ 6#16,
    .read .meterConfig 4#16 5#16]

theorem meter_config_faithful_overlapping : ∃ (replies : List GattReply) (final : StaticData),
    ((serve btGattAttrRead overlapping StaticData.initial).runWith fullReplies).outcome = .ok (replies, final) ∧
      replies[4]? = some ⟨4, [0x01#8, 0x07#8, 0x03#8, 0x00#8]⟩ := by
  obtain ⟨⟨replies, final, houtcome, hreads, -⟩, -⟩ := meter_config_faithful btGattAttrRead btGattAttrRead_copiesFrom
    overlapping ((serve btGattAttrRead overlapping StaticData.initial).runWith fullReplies)
  exact ⟨replies, final, houtcome, (hreads 4 4#16 5#16 rfl (by decide)).trans (by decide)⟩

end Example

end TJ3Firmware
