import TJ3Firmware.BleGatt.RegisterFile
import TJ3Firmware.Library.KeyedStore

namespace TJ3Firmware

open Library.Memory Library.Interaction Library.KeyedStore

section Spec

-- The characteristics that an operation can be about. Clear Logs is about the
-- Log Count.
inductive Attribute
  | readable (attr : Readable)
  | command
  | logFetch
  deriving Repr, DecidableEq

def GattOp.target : GattOp → Attribute
  | .read attr _ _ => .readable attr
  | .write .meterConfig _ _ => .readable .meterConfig
  | .write (.command _) _ _ => .command
  | .write .logFetch _ _ => .logFetch
  | .write .logLevel _ _ => .readable .logLevel
  | .write .clearLogs _ _ => .readable .logCount

-- What a peer reads of a characteristic from its start to its end. Command and
-- Log Fetch hold nothing.
def StaticData.value (data : StaticData) : Attribute → List Byte
  | .readable .meterSnapshot => data.meterSnapshot
  | .readable .meterConfig => data.meterConfig.cells
  | .readable .powerPulse => le32 data.powerPulse
  | .readable .alarmStatus => le32 data.alarmStatus
  | .readable .logCount => le16 data.logCount
  | .readable .logLevel => [data.logLevel]
  | .command => []
  | .logFetch => []

-- The reply to an operation on a value, and the value afterwards.
def GattOp.step (attrRead : AttrRead) : GattOp → List Byte → GattReply × List Byte
  | .read _ len offset, value => (attrRead value len offset, value)
  | .write .meterConfig buf offset, value =>
      if offset.toNat + buf.bytes.length ≤ value.length then
        (⟨buf.bytes.length, []⟩,
          value.take offset.toNat ++ buf.bytes ++ value.drop (offset.toNat + buf.bytes.length))
      else (⟨btGattErr BT_ATT_ERR_INVALID_OFFSET, []⟩, value)
  | .write (.command _) buf _, value => (⟨buf.bytes.length, []⟩, value)
  | .write .logFetch buf _, value =>
      (⟨if 2 ≤ buf.bytes.length then (buf.bytes.length : Int) else btGattErr BT_ATT_ERR_INVALID_ATTRIBUTE_LEN, []⟩,
        value)
  | .write .logLevel buf _, value =>
      if buf.bytes.length = 1 then (⟨1, []⟩, buf.bytes)
      else (⟨btGattErr BT_ATT_ERR_INVALID_ATTRIBUTE_LEN, []⟩, value)
  | .write .clearLogs buf _, _ => (⟨buf.bytes.length, []⟩, [0x00#8, 0x00#8])

-- The attribute database as a store of values.
def gattStore (attrRead : AttrRead) : Keyed Attribute (List Byte) GattOp GattReply where
  target := GattOp.target
  step := GattOp.step attrRead

end Spec

section Step

variable (attrRead : AttrRead) (data : StaticData)

-- One operation does to the static data what it does to the store.
def Refines (op : GattOp) (result : GattReply × StaticData) : Prop :=
  result.1 = ((gattStore attrRead).apply op data.value).1 ∧
    result.2.value = ((gattStore attrRead).apply op data.value).2

variable {attrRead data}

theorem refines_of_step {op : GattOp} {reply : GattReply} {next : StaticData}
    (hstep : op.step attrRead (data.value op.target) = (reply, next.value op.target))
    (hother : ∀ attr, attr ≠ op.target → next.value attr = data.value attr) : Refines attrRead data op (reply, next) := by
  constructor
  · simp [Keyed.apply, gattStore, hstep]
  · show next.value = Function.update data.value op.target (op.step attrRead (data.value op.target)).2
    rw [Function.eq_update_iff, hstep]
    exact ⟨rfl, hother⟩

-- An operation that leaves the data alone.
theorem refines_of_kept {op : GattOp} {reply : GattReply}
    (hstep : op.step attrRead (data.value op.target) = (reply, data.value op.target)) :
    Refines attrRead data op (reply, data) := refines_of_step hstep fun _ _ => rfl

theorem read_refines (attr : Readable) (len offset : Word16) :
    Refines attrRead data (.read attr len offset) (readHandler attrRead len offset data attr, data) := by
  apply refines_of_kept
  cases attr <;> rfl

variable (attrRead data)

theorem writeMeterConfig_refines (buf : WriteBuf) (offset : Word16) :
    ∃ (ret : Int) (next : StaticData), writeMeterConfig buf offset data = .ok (ret, next) ∧
      Refines attrRead data (.write .meterConfig buf offset) (⟨ret, []⟩, next) := by
  have hlength := data.meterConfig.length_cells
  unfold writeMeterConfig
  by_cases hfits : offset.toNat + buf.bytes.length ≤ METER_CONFIG_SIZE
  · obtain ⟨config, hcopy, hcells⟩ := data.meterConfig.copy_eq offset.toNat buf.bytes hfits
    rw [if_neg (mt (exceeds_iff buf offset).mp (not_not.mpr hfits)), buf.readRange, ok_bind, hcopy, ok_bind,
      buf.toNat_len]
    refine ⟨_, _, rfl, refines_of_step ?_ ?_⟩
    · simp [GattOp.step, GattOp.target, StaticData.value, hlength, hfits, hcells]
    · intro attr hattr
      rcases attr with ⟨_ | _ | _ | _ | _ | _⟩ | _ | _ <;> first | rfl | exact absurd rfl hattr
  · rw [if_pos ((exceeds_iff buf offset).mpr hfits)]
    refine ⟨_, _, rfl, refines_of_kept ?_⟩
    simp [GattOp.step, GattOp.target, StaticData.value, hlength, hfits]

theorem len_lt_two_iff (buf : WriteBuf) : buf.len < 2#16 ↔ ¬2 ≤ buf.bytes.length := by
  rw [BitVec.lt_def, buf.toNat_len, not_le]
  rfl

theorem writeLogFetch_ret (buf : WriteBuf) : Returns (writeLogFetch buf) fun ret =>
    ret = if 2 ≤ buf.bytes.length then (buf.bytes.length : Int) else btGattErr BT_ATT_ERR_INVALID_ATTRIBUTE_LEN := by
  unfold writeLogFetch
  by_cases htwo : 2 ≤ buf.bytes.length
  · rw [if_neg (mt (len_lt_two_iff buf).mp (not_not.mpr htwo)), if_pos htwo, Ptr.readRange_eq _ _ _ (by omega)]
    simp [btGattIndicate, perform, buf.toNat_len]
  · rw [if_pos ((len_lt_two_iff buf).mpr htwo), if_neg htwo, returns_pure]

theorem writeLogLevel_refines (buf : WriteBuf) (offset : Word16) :
    ∃ (ret : Int) (next : StaticData), writeLogLevel buf data = .ok (ret, next) ∧
      Refines attrRead data (.write .logLevel buf offset) (⟨ret, []⟩, next) := by
  have hone : buf.len ≠ 1#16 ↔ buf.bytes.length ≠ 1 := by
    rw [Ne, BitVec.toNat_eq, buf.toNat_len]
    rfl
  unfold writeLogLevel
  by_cases hlength : buf.bytes.length = 1
  · obtain ⟨level, hlevel⟩ := List.length_eq_one_iff.mp hlength
    rw [if_neg (mt hone.mp (not_not.mpr hlength)), Ptr.read_eq_getD _ 0 0 0x00#8 (by omega), ok_bind, buf.toNat_len,
      hlength]
    refine ⟨_, _, rfl, refines_of_step ?_ ?_⟩
    · simp [GattOp.step, GattOp.target, StaticData.value, hlevel]
    · intro attr hattr
      rcases attr with ⟨_ | _ | _ | _ | _ | _⟩ | _ | _ <;> first | rfl | exact absurd rfl hattr
  · rw [if_pos (hone.mpr hlength)]
    refine ⟨_, _, rfl, refines_of_kept ?_⟩
    simp [GattOp.step, hlength]

theorem writeHandler_refines (attr : Writable) (buf : WriteBuf) (offset : Word16) :
    Returns (writeHandler buf offset data attr) fun result =>
      Refines attrRead data (.write attr buf offset) (⟨result.1, []⟩, result.2) := by
  cases attr with
  | meterConfig =>
      obtain ⟨ret, next, hwrite, hrefines⟩ := writeMeterConfig_refines attrRead data buf offset
      rw [writeHandler, hwrite]
      exact hrefines
  | command txBuf =>
      simp only [writeHandler, returns_bind, returns_pure]
      refine returns_mono _ _ _ (fun ret hret => ?_) (writePacket_returns txBuf buf.bytes)
      rw [hret]
      exact refines_of_kept rfl
  | logFetch =>
      simp only [writeHandler, returns_bind, returns_pure]
      refine returns_mono _ _ _ (fun ret hret => ?_) (writeLogFetch_ret buf)
      rw [hret]
      exact refines_of_kept rfl
  | logLevel =>
      obtain ⟨ret, next, hwrite, hrefines⟩ := writeLogLevel_refines attrRead data buf offset
      rw [writeHandler, hwrite]
      exact hrefines
  | clearLogs =>
      simp only [writeHandler, writeClearLogs, btGattIndicate, perform, returns_bind, returns_perform, returns_pure]
      intro _
      refine refines_of_step ?_ ?_
      · simp [GattOp.step, GattOp.target, StaticData.value, buf.toNat_len, le16, lowByte, highByte]
      · intro attr hattr
        rcases attr with ⟨_ | _ | _ | _ | _ | _⟩ | _ | _ <;> first | rfl | exact absurd rfl hattr

theorem handle_refines (op : GattOp) :
    Returns (op.handle attrRead data) (Refines attrRead data op) := by
  cases op with
  | read attr len offset =>
      rw [GattOp.handle, returns_pure]
      exact read_refines attr len offset
  | write attr buf offset =>
      simp only [GattOp.handle, returns_bind, returns_pure]
      exact writeHandler_refines attrRead data attr buf offset

end Step

section Run

theorem serve_refines (attrRead : AttrRead) (ops : List GattOp) (data : StaticData) :
    Returns (serve attrRead ops data) fun result =>
      (result.1, result.2.value) = (gattStore attrRead).serve ops data.value := by
  induction ops generalizing data with
  | nil => rfl
  | cons op rest ih =>
      rw [serve, returns_bind]
      refine returns_mono _ _ _ ?_ (handle_refines attrRead data op)
      rintro ⟨reply, next⟩ ⟨hreply, hnext⟩
      rw [returns_bind]
      refine returns_mono _ _ _ ?_ (ih next)
      rintro ⟨replies, final⟩ hserve
      rw [Keyed.serve_cons, ← hreply, ← hnext, ← hserve]
      rfl

-- Any history of operations is answered as the store of values answers it, and
-- leaves the values that the store holds.
theorem gatt_database (attrRead : AttrRead) (ops : List GattOp) (data : StaticData)
    (run : Run (serve attrRead ops data)) :
    ∃ final : StaticData, run.outcome = .ok (((gattStore attrRead).serve ops data.value).1, final) ∧
      final.value = ((gattStore attrRead).serve ops data.value).2 := by
  obtain ⟨⟨replies, final⟩, houtcome, hserve⟩ := returns_sound _ _ (serve_refines attrRead ops data) run
  rw [← hserve]
  exact ⟨final, houtcome, rfl⟩

end Run

section Independence

-- The characteristics do not disturb each other: over any history the replies
-- about one of them, and its value in the end, are those that its own operations
-- get on their own.
theorem characteristics_independent (attrRead : AttrRead) (attr : Attribute) (ops : List GattOp)
    (data other : StaticData) (hsame : data.value attr = other.value attr) (run : Run (serve attrRead ops data))
    (alone : Run (serve attrRead ((gattStore attrRead).opsOn attr ops) other)) :
    ∃ (replies : List GattReply) (final : StaticData) (aloneReplies : List GattReply) (aloneFinal : StaticData),
      run.outcome = .ok (replies, final) ∧ alone.outcome = .ok (aloneReplies, aloneFinal) ∧
        (gattStore attrRead).repliesOn attr ops replies = aloneReplies ∧
        final.value attr = aloneFinal.value attr := by
  obtain ⟨⟨replies, final⟩, houtcome, hserve⟩ := returns_sound _ _ (serve_refines attrRead ops data) run
  obtain ⟨⟨aloneReplies, aloneFinal⟩, haloneOutcome, haloneServe⟩ :=
    returns_sound _ _ (serve_refines attrRead _ other) alone
  have hkey := (gattStore attrRead).serve_opsOn attr ops data.value other.value hsame
  rw [← hserve, ← haloneServe] at hkey
  exact ⟨replies, final, aloneReplies, aloneFinal, houtcome, haloneOutcome, hkey⟩

end Independence

section LongRead

-- sizeof of the data behind a characteristic
def Attribute.size : Attribute → Nat
  | .readable .meterSnapshot => 20
  | .readable .meterConfig => METER_CONFIG_SIZE
  | .readable .powerPulse => 4
  | .readable .alarmStatus => 4
  | .readable .logCount => 2
  | .readable .logLevel => 1
  | .command => 0
  | .logFetch => 0

def Sized (values : Attribute → List Byte) : Prop := ∀ attr, (values attr).length = attr.size

-- A Read and the Read Blobs after it, each from where the last one ended.
def longRead (attr : Readable) : List Word16 → Word16 → List GattOp
  | [], _ => []
  | len :: rest, offset => .read attr len offset :: longRead attr rest (offset + len)

def totalLen (lens : List Word16) : Nat := (lens.map BitVec.toNat).sum

theorem sized_initial : Sized StaticData.initial.value := by
  rintro (⟨_ | _ | _ | _ | _ | _⟩ | _ | _) <;> rfl

theorem length_step (attrRead : AttrRead) (op : GattOp) (value : List Byte) (h : value.length = op.target.size) :
    (op.step attrRead value).2.length = op.target.size := by
  cases op with
  | read attr len offset => exact h
  | write attr buf offset =>
      cases attr with
      | meterConfig =>
          rw [GattOp.step]
          split
          · simp only [List.length_append, List.length_take, List.length_drop]
            omega
          · exact h
      | logLevel =>
          rw [GattOp.step]
          split
          · rename_i hone
            exact hone
          · exact h
      | clearLogs => rfl
      | command txBuf => exact h
      | logFetch => exact h

theorem sized_serve (attrRead : AttrRead) (ops : List GattOp) (values : Attribute → List Byte) (h : Sized values) :
    Sized ((gattStore attrRead).serve ops values).2 := by
  induction ops generalizing values with
  | nil => exact h
  | cons op rest ih =>
      apply ih
      intro attr
      by_cases hattr : op.target = attr
      · subst hattr
        have hstep := length_step attrRead op (values op.target) (h op.target)
        simpa [Keyed.apply, gattStore] using hstep
      · rw [Keyed.apply_other hattr, h attr]

-- The pieces follow each other without a gap.
theorem longRead_pieces {attrRead : AttrRead} (hcopies : CopiesFrom attrRead) (attr : Readable) (lens : List Word16)
    (offset : Word16) (values : Attribute → List Byte) (hsized : Sized values)
    (h : offset.toNat + totalLen lens.dropLast ≤ (Attribute.readable attr).size) :
    ((gattStore attrRead).serve (longRead attr lens offset) values).1.flatMap GattReply.copied =
      ((values (.readable attr)).drop offset.toNat).take (totalLen lens) := by
  induction lens generalizing offset with
  | nil => simp [longRead, totalLen]
  | cons len rest ih =>
      have hlength := hsized (.readable attr)
      have hread : (gattStore attrRead).apply (.read attr len offset) values =
          (attrRead (values (.readable attr)) len offset, values) := by
        simp [Keyed.apply, gattStore, GattOp.step, GattOp.target]
      rw [longRead, Keyed.serve_cons, hread, List.flatMap_cons, hcopies _ _ _ (by omega)]
      cases rest with
      | nil => simp [longRead, totalLen]
      | cons second rest =>
          have hsize : (Attribute.readable attr).size ≤ 20 := by cases attr <;> decide
          simp only [totalLen, List.dropLast_cons_cons, List.map_cons, List.sum_cons] at h
          have hnext : (offset + len).toNat = offset.toNat + len.toNat := by
            rw [BitVec.toNat_add, Nat.mod_eq_of_lt (by omega)]
          rw [ih (offset + len) (by rw [hnext]; simp only [totalLen]; omega), hnext, ← List.drop_drop]
          simp only [totalLen, List.map_cons, List.sum_cons]
          rw [← List.take_add]

theorem longRead_keeps (attrRead : AttrRead) (attr : Readable) (lens : List Word16) (offset : Word16)
    (values : Attribute → List Byte) : ((gattStore attrRead).serve (longRead attr lens offset) values).2 = values := by
  induction lens generalizing offset with
  | nil => rfl
  | cons len rest ih =>
      have hread : ((gattStore attrRead).apply (.read attr len offset) values).2 = values := Function.update_eq_self _ _
      rw [longRead, Keyed.serve_cons]
      simp only [hread, ih]

-- A value is read whole in pieces: after any history, the pieces of a long read
-- put together are the value from its start on, whatever is done to the other
-- characteristics between the pieces.
theorem long_read_whole (attrRead : AttrRead) (hcopies : CopiesFrom attrRead) (attr : Readable) (lens : List Word16)
    (hpieces : totalLen lens.dropLast ≤ (Attribute.readable attr).size) (before during : List GattOp)
    (honly : (gattStore attrRead).opsOn (.readable attr) during = longRead attr lens 0#16)
    (run : Run (serve attrRead (before ++ during) StaticData.initial)) :
    ∃ (earlier later : List GattReply) (final : StaticData), run.outcome = .ok (earlier ++ later, final) ∧
      earlier.length = before.length ∧
      ((gattStore attrRead).repliesOn (.readable attr) during later).flatMap GattReply.copied =
        (final.value (.readable attr)).take (totalLen lens) := by
  obtain ⟨final, houtcome, hfinal⟩ := gatt_database attrRead (before ++ during) StaticData.initial run
  rw [Keyed.serve_append] at houtcome hfinal
  have hsized := sized_serve attrRead before _ sized_initial
  generalize hbetween : ((gattStore attrRead).serve before StaticData.initial.value).2 = values at houtcome hfinal hsized
  obtain ⟨hreplies, hvalue⟩ := (gattStore attrRead).serve_opsOn (.readable attr) during values values rfl
  rw [honly] at hreplies hvalue
  refine ⟨_, _, final, houtcome, Keyed.length_serve _ _, ?_⟩
  rw [hreplies, hfinal, hvalue, longRead_keeps, longRead_pieces hcopies attr lens 0#16 values hsized (by simpa using hpieces)]
  rfl

end LongRead

section Example

-- Meter Config is read in three pieces, with the log level set between them.
def piecewise : List GattOp :=
  [.read .meterConfig 8#16 0#16, .write .logLevel ⟨[0x04#8], by decide⟩ 0#16, .read .meterConfig 8#16 8#16,
    .write .clearLogs ⟨[0x00#8], by decide⟩ 0#16, .read .meterConfig 8#16 16#16]

theorem characteristics_independent_piecewise : ∃ (replies : List GattReply) (final : StaticData)
    (aloneReplies : List GattReply) (aloneFinal : StaticData),
    ((serve btGattAttrRead piecewise StaticData.initial).runWith fullReplies).outcome = .ok (replies, final) ∧
      ((serve btGattAttrRead [.write .logLevel ⟨[0x04#8], by decide⟩ 0#16] StaticData.initial).runWith
        fullReplies).outcome = .ok (aloneReplies, aloneFinal) ∧
      (gattStore btGattAttrRead).repliesOn (.readable .logLevel) piecewise replies = aloneReplies ∧
      final.value (.readable .logLevel) = aloneFinal.value (.readable .logLevel) :=
  characteristics_independent btGattAttrRead (.readable .logLevel) piecewise StaticData.initial StaticData.initial rfl
    ((serve btGattAttrRead piecewise StaticData.initial).runWith fullReplies)
    ((serve btGattAttrRead [.write .logLevel ⟨[0x04#8], by decide⟩ 0#16] StaticData.initial).runWith fullReplies)

theorem long_read_whole_piecewise : ∃ (earlier later : List GattReply) (final : StaticData),
    ((serve btGattAttrRead (overlapping ++ piecewise) StaticData.initial).runWith fullReplies).outcome =
        .ok (earlier ++ later, final) ∧
      earlier.length = overlapping.length ∧
      ((gattStore btGattAttrRead).repliesOn (.readable .meterConfig) piecewise later).flatMap GattReply.copied =
        (final.value (.readable .meterConfig)).take 24 :=
  long_read_whole btGattAttrRead btGattAttrRead_copiesFrom .meterConfig [8#16, 8#16, 8#16] (by decide) overlapping
    piecewise rfl ((serve btGattAttrRead (overlapping ++ piecewise) StaticData.initial).runWith fullReplies)

end Example

end TJ3Firmware
