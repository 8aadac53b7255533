import TJ3Firmware.Protocol.Frame

namespace TJ3Firmware

open Library.Memory

-- A payload argument within the contract of protocol_compose: an empty one,
-- whatever the pointer, or a pointer to payload_len readable bytes.
structure PayloadArg where
  pointer : Option (Ptr Byte)
  len : Word16
  bytes : List Byte
  readable : len = 0#16 ∧ bytes = [] ∨ ∃ source, pointer = some source ∧ source.readRange len.toNat = .ok bytes

namespace PayloadArg

theorem length_bytes (arg : PayloadArg) : arg.bytes.length = arg.len.toNat := by
  rcases arg.readable with ⟨hlen, hbytes⟩ | ⟨source, -, hread⟩
  · rw [hlen, hbytes]
    rfl
  · exact source.readRange_length _ _ hread

-- A NULL pointer, or one past which nothing is read.
def empty (pointer : Option (Ptr Byte)) : PayloadArg where
  pointer := pointer
  len := 0#16
  bytes := []
  readable := Or.inl ⟨rfl, rfl⟩

-- A pointer to the start of an array.
def ofBytes (bytes : List Byte) (h : bytes.length < 65536) : PayloadArg where
  pointer := some ⟨bytes, 0⟩
  len := BitVec.ofNat 16 bytes.length
  bytes := bytes
  readable := by
    refine Or.inr ⟨_, rfl, ?_⟩
    rw [BitVec.toNat_ofNat, Nat.mod_eq_of_lt h, Ptr.readRange_eq _ _ _ (by simp)]
    simp

def frame (arg : PayloadArg) (opCode : Byte) (h : arg.len.toNat ≤ 65533) : Frame where
  opCode := opCode
  payload := arg.bytes
  fits := arg.length_bytes ▸ h

theorem length_frame_encode (arg : PayloadArg) (opCode : Byte) (h : arg.len.toNat ≤ 65533) :
    (arg.frame opCode h).encode.length = arg.len.toNat + 7 := by
  rw [Frame.length_encode]
  exact congrArg (· + 7) arg.length_bytes

end PayloadArg

theorem toNat_composeLen (payloadLen : Word16) :
    (composeLen payloadLen).toNat = (payloadLen.toNat + 2) % 65536 := by
  simp only [composeLen, BitVec.toNat_add, BitVec.toNat_ofNat]
  omega

theorem toNat_composeLen_of_le (payloadLen : Word16) (h : payloadLen.toNat ≤ 65533) :
    (composeLen payloadLen).toNat = payloadLen.toNat + 2 := by
  rw [toNat_composeLen]
  omega

section Compose

variable {size : Nat} (opCode : Byte) (arg : PayloadArg) (outBuf : Store Byte size) (outMax : Nat)

theorem copyPayload_filled (values : List Byte) (h : values.length ≤ size)
    (hfit : values.length + arg.len.toNat ≤ size) :
    copyPayload arg.pointer arg.len (outBuf.filled values h) values.length =
      .ok (values.length + arg.len.toNat,
        outBuf.filled (values ++ arg.bytes) (by rw [List.length_append, arg.length_bytes]; exact hfit)) := by
  have hlength := arg.length_bytes
  by_cases hzero : arg.len.toNat = 0
  · have hbytes : arg.bytes = [] := List.length_eq_zero_iff.mp (by omega)
    simp only [hbytes, List.append_nil, hzero, Nat.add_zero]
    unfold copyPayload
    split <;> simp [hzero]
  · rcases arg.readable with ⟨hlen, -⟩ | ⟨source, hsource, hread⟩
    · exact absurd (congrArg BitVec.toNat hlen) hzero
    · rw [hsource]
      simp only [copyPayload]
      rw [if_pos (by omega), hread, ok_bind,
        Store.copy_filled outBuf values arg.bytes h _ rfl (by omega), ok_bind]

theorem compose_too_small (h : outMax < 5 + (composeLen arg.len).toNat) :
    protocolCompose opCode arg.pointer arg.len outBuf outMax = .ok (-1, outBuf) := by
  unfold protocolCompose
  exact if_pos (by omega)

-- With room for the whole frame the composer fills the buffer with it from
-- index 0 on and touches nothing else.
theorem compose_eq (hlen : arg.len.toNat ≤ 65533) (hmax : arg.len.toNat + 7 ≤ outMax) (hsize : outMax ≤ size) :
    protocolCompose opCode arg.pointer arg.len outBuf outMax =
      .ok ((arg.len.toNat + 7 : Nat),
        outBuf.filled (arg.frame opCode hlen).encode
          (by rw [arg.length_frame_encode]; omega)) := by
  have hval := toNat_composeLen_of_le arg.len hlen
  have hlength := arg.length_bytes
  have hword : composeLen arg.len = (arg.frame opCode hlen).lenVal := by
    apply BitVec.eq_of_toNat_eq
    rw [hval, Frame.toNat_lenVal]
    exact congrArg (· + 2) hlength.symm
  unfold protocolCompose
  simp only [hval]
  rw [if_neg (by omega)]
  -- the four header bytes
  have hstx := Store.write_filled outBuf [] (Nat.zero_le _) 0 rfl (by omega) PROTOCOL_STX
  rw [Store.filled_nil] at hstx
  rw [hstx, ok_bind, Store.write_filled outBuf _ _ 1 rfl (by omega), ok_bind,
    Store.write_filled outBuf _ _ 2 rfl (by omega), ok_bind,
    Store.write_filled outBuf _ _ 3 rfl (by omega), ok_bind]
  simp only [List.nil_append, List.cons_append]
  -- payload, ETX and checksum
  have hcopy := copyPayload_filled arg outBuf
    [PROTOCOL_STX, lowByte (composeLen arg.len), highByte (composeLen arg.len), opCode]
    (by simp only [List.length_cons, List.length_nil]; omega)
    (by simp only [List.length_cons, List.length_nil]; omega)
  change copyPayload arg.pointer arg.len _ 4 = _ at hcopy
  rw [hcopy, ok_bind]
  simp only [List.length_cons, List.length_nil, List.cons_append, List.nil_append]
  rw [Store.write_filled outBuf _ _ _ (by simp only [List.length_cons, hlength]; omega) (by omega), ok_bind,
    Store.readRange_filled outBuf _ _ 1 _ (by
      simp only [List.length_append, List.length_cons, List.length_nil, hlength]; omega), ok_bind]
  have hbody : (List.drop 1 (PROTOCOL_STX :: lowByte (composeLen arg.len) :: highByte (composeLen arg.len) ::
      opCode :: arg.bytes ++ [PROTOCOL_ETX])).take (2 + (arg.len.toNat + 2)) = (arg.frame opCode hlen).body := by
    rw [hword, List.cons_append, List.drop_succ_cons, List.drop_zero]
    apply List.take_of_length_le
    simp only [List.length_append, List.length_cons, List.length_nil, hlength]
    omega
  rw [hbody, Store.write_filled outBuf _ _ _ (by
      simp only [List.length_append, List.length_cons, List.length_nil, hlength]; omega) (by omega), ok_bind,
    Store.write_filled outBuf _ _ _ (by
      simp only [List.length_append, List.length_cons, List.length_nil, hlength]; omega) (by omega), ok_bind]
  have htotal : 1 + 2 + (arg.len.toNat + 2) + 2 = arg.len.toNat + 7 := by omega
  have hencode : PROTOCOL_STX :: lowByte (composeLen arg.len) :: highByte (composeLen arg.len) :: opCode ::
      arg.bytes ++ [PROTOCOL_ETX] ++ [lowByte (protocolCalculateCrc (arg.frame opCode hlen).body)] ++
        [highByte (protocolCalculateCrc (arg.frame opCode hlen).body)] = (arg.frame opCode hlen).encode := by
    rw [hword]
    simp [Frame.encode, Frame.body, Frame.crc, PayloadArg.frame]
  simp only [htotal, hencode]

-- A payload that fits the LEN field is refused or framed whole.
theorem compose_cases (hlen : arg.len.toNat ≤ 65533) (hsize : outMax ≤ size) :
    protocolCompose opCode arg.pointer arg.len outBuf outMax = .ok (-1, outBuf) ∨
      ∃ outBuf', protocolCompose opCode arg.pointer arg.len outBuf outMax =
        .ok ((arg.len.toNat + 7 : Nat), outBuf') ∧ arg.len.toNat + 7 ≤ outMax := by
  rcases Nat.lt_or_ge outMax (arg.len.toNat + 7) with hmax | hmax
  · left
    have hval := toNat_composeLen_of_le arg.len hlen
    exact compose_too_small opCode arg outBuf outMax (by omega)
  · right
    exact ⟨_, compose_eq opCode arg outBuf outMax hlen hmax hsize, hmax⟩

-- Whatever it stores, a composer that got past the size check returns the
-- total computed from the 16-bit LEN.
theorem compose_return (result : Int) (outBuf' : Store Byte size)
    (hmax : 5 + (composeLen arg.len).toNat ≤ outMax)
    (h : protocolCompose opCode arg.pointer arg.len outBuf outMax = .ok (result, outBuf')) :
    result = 5 + (composeLen arg.len).toNat := by
  unfold protocolCompose at h
  simp only at h
  rw [if_neg (by omega)] at h
  simp only [bind_eq_ok] at h
  obtain ⟨_, -, _, -, _, -, _, -, ⟨idx, _⟩, -, _, -, _, -, _, -, _, -, hresult⟩ := h
  cases hresult
  push_cast
  omega

end Compose

section Contract

variable {size : Nat}

-- What a caller relies on. The stores are those made since the call.
def ComposeContract (opCode : Byte) (arg : PayloadArg) (outBuf : Store Byte size) (outMax : Nat) : Prop :=
  ∃ (result : Int) (outBuf' : Store Byte size) (stores : List Nat),
    protocolCompose opCode arg.pointer arg.len outBuf outMax = .ok (result, outBuf') ∧
    outBuf'.written = outBuf.written ++ stores ∧
    (∀ index ∈ stores, index < outMax) ∧
    (outMax < arg.len.toNat + 7 → result < 0 ∧ stores = []) ∧
    (arg.len.toNat + 7 ≤ outMax → result = arg.len.toNat + 7 ∧ stores = List.range (arg.len.toNat + 7))

variable (opCode : Byte) (arg : PayloadArg) (outBuf : Store Byte size) (outMax : Nat)

theorem contract_of_rejected (hsmall : outMax < 5 + (composeLen arg.len).toNat)
    (hneed : outMax < arg.len.toNat + 7) : ComposeContract opCode arg outBuf outMax := by
  refine ⟨-1, outBuf, [], compose_too_small opCode arg outBuf outMax hsmall, by simp, by simp, ?_, ?_⟩
  · intro _
    exact ⟨by decide, rfl⟩
  · intro hroom
    omega

theorem contract_of_le (hlen : arg.len.toNat ≤ 65533) (hsize : outMax ≤ size) :
    ComposeContract opCode arg outBuf outMax := by
  by_cases hroom : arg.len.toNat + 7 ≤ outMax
  · refine ⟨_, _, List.range (arg.len.toNat + 7), compose_eq opCode arg outBuf outMax hlen hroom hsize,
      ?_, ?_, ?_, ?_⟩
    · rw [Store.written_filled, arg.length_frame_encode]
    · intro index hindex
      have := List.mem_range.mp hindex
      omega
    · intro hsmall
      omega
    · intro _
      exact ⟨by push_cast; rfl, rfl⟩
  · have hval := toNat_composeLen_of_le arg.len hlen
    exact contract_of_rejected opCode arg outBuf outMax (by omega) (by omega)

-- LEN has wrapped to 0 or 1 and the size check lets too small a total pass.
theorem not_contract_of_wrap (hlen : 65533 < arg.len.toNat) (hmax : arg.len.toNat ≤ outMax + 65529) :
    ¬ComposeContract opCode arg outBuf outMax := by
  rintro ⟨result, outBuf', stores, hrun, -, -, hsmall, hroom⟩
  have hlt := arg.len.isLt
  have hval := toNat_composeLen arg.len
  have hresult := compose_return opCode arg outBuf outMax result outBuf' (by omega) hrun
  by_cases h : outMax < arg.len.toNat + 7
  · have := (hsmall h).1
    omega
  · have := (hroom (by omega)).1
    omega

-- The buffer may be larger than the out_max handed over.
theorem compose_contract_iff (extra : Nat) (outBuf : Store Byte (outMax + extra)) :
    ComposeContract opCode arg outBuf outMax ↔ arg.len.toNat ≤ 65533 ∨ outMax + 65529 < arg.len.toNat := by
  constructor
  · intro h
    by_contra hn
    exact not_contract_of_wrap opCode arg outBuf outMax (by omega) (by omega) h
  · rintro (hlen | hmax)
    · exact contract_of_le opCode arg outBuf outMax hlen (Nat.le_add_right _ _)
    · have hlt := arg.len.isLt
      have hval := toNat_composeLen arg.len
      exact contract_of_rejected opCode arg outBuf outMax (by omega) (by omega)

-- 65534 payload bytes into a buffer of 10.
theorem compose_contract_violated :
    ¬∀ (opCode : Byte) (arg : PayloadArg) (outMax extra : Nat) (outBuf : Store Byte (outMax + extra)),
      ComposeContract opCode arg outBuf outMax := by
  intro h
  have hbytes : (List.replicate 65534 0x00#8).length < 65536 := by
    rw [List.length_replicate]
    omega
  have hlen : (PayloadArg.ofBytes (List.replicate 65534 0x00#8) hbytes).len.toNat = 65534 := by
    change (BitVec.ofNat 16 (List.replicate 65534 0x00#8).length).toNat = 65534
    rw [List.length_replicate]
    rfl
  exact not_contract_of_wrap OP_BLE_TEST_ECHO _ (Store.fresh 10 0x00#8) 10 (by omega) (by omega)
    (h OP_BLE_TEST_ECHO (PayloadArg.ofBytes (List.replicate 65534 0x00#8) hbytes) 10 0 (Store.fresh 10 0x00#8))

end Contract

end TJ3Firmware
