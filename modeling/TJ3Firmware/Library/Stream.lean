import Mathlib.Data.List.Basic
import Mathlib.Data.List.Induction

namespace Library.Stream

variable {Symbol Item View : Type}

-- A receiver decodes at the current position and advances by the length it
-- was told, until nothing is left. It gives up on a part it cannot decode.
def receive (decode : List Symbol → Option (View × Nat)) : Nat → List Symbol → Option (List View)
  | _, [] => some []
  | 0, _ :: _ => none
  | fuel + 1, symbol :: rest =>
      match decode (symbol :: rest) with
      | none => none
      | some (view, length) => (receive decode fuel ((symbol :: rest).drop length)).map (view :: ·)

def receiveAll (decode : List Symbol → Option (View × Nat)) (stream : List Symbol) : Option (List View) :=
  receive decode stream.length stream

-- Encoded items can be told apart from whatever follows them.
structure Framing (Symbol Item View : Type) where
  encode : Item → List Symbol
  view : Item → View
  decode : List Symbol → Option (View × Nat)
  encode_ne_nil : ∀ item, encode item ≠ []
  decode_encode : ∀ item rest, decode (encode item ++ rest) = some (view item, (encode item).length)

namespace Framing

variable (framing : Framing Symbol Item View)

theorem receive_encode_append (item : Item) (rest : List Symbol) (fuel : Nat) :
    receive framing.decode (fuel + 1) (framing.encode item ++ rest) =
      (receive framing.decode fuel rest).map (framing.view item :: ·) := by
  have hdecode := framing.decode_encode item rest
  obtain ⟨symbol, more, hencode⟩ := List.exists_cons_of_ne_nil (framing.encode_ne_nil item)
  rw [hencode, List.cons_append] at hdecode ⊢
  rw [receive, hdecode]
  simp only [← List.cons_append, List.drop_left]

theorem receive_flatMap (items : List Item) (fuel : Nat) (hfuel : items.length ≤ fuel) :
    receive framing.decode fuel (items.flatMap framing.encode) = some (items.map framing.view) := by
  induction items generalizing fuel with
  | nil => cases fuel <;> rfl
  | cons item rest ih =>
      cases fuel with
      | zero => exact absurd hfuel (Nat.not_succ_le_zero _)
      | succ fuel =>
          have hrest := ih fuel (Nat.le_of_succ_le_succ hfuel)
          rw [List.flatMap_cons, receive_encode_append, hrest, Option.map_some, List.map_cons]

theorem length_le_flatMap (items : List Item) : items.length ≤ (items.flatMap framing.encode).length := by
  induction items with
  | nil => exact Nat.le_refl 0
  | cons item rest ih =>
      have hpos := List.length_pos_of_ne_nil (framing.encode_ne_nil item)
      rw [List.flatMap_cons, List.length_append, List.length_cons]
      omega

-- Every symbol of an encoded stream is consumed and every item recovered.
theorem receiveAll_flatMap (items : List Item) :
    receiveAll framing.decode (items.flatMap framing.encode) = some (items.map framing.view) :=
  framing.receive_flatMap items _ (framing.length_le_flatMap items)

end Framing

section Incremental

-- A receiver that keeps what it cannot decode yet.
def receivePart (decode : List Symbol → Option (View × Nat)) : Nat → List Symbol → List View × List Symbol
  | _, [] => ([], [])
  | 0, stream => ([], stream)
  | fuel + 1, stream =>
      match decode stream with
      | none => ([], stream)
      | some (view, length) =>
          (view :: (receivePart decode fuel (stream.drop length)).1, (receivePart decode fuel (stream.drop length)).2)

-- It gets another chunk.
def feed (decode : List Symbol → Option (View × Nat)) (received : List View × List Symbol) (chunk : List Symbol) :
    List View × List Symbol :=
  (received.1 ++ (receivePart decode (received.2 ++ chunk).length (received.2 ++ chunk)).1,
    (receivePart decode (received.2 ++ chunk).length (received.2 ++ chunk)).2)

theorem receivePart_none {decode : List Symbol → Option (View × Nat)} {stream : List Symbol}
    (h : decode stream = none) (fuel : Nat) : receivePart decode fuel stream = ([], stream) := by
  cases stream with
  | nil => cases fuel <;> rfl
  | cons symbol rest =>
      cases fuel with
      | zero => rfl
      | succ fuel => rw [receivePart, h]; simp

theorem receivePart_some {decode : List Symbol → Option (View × Nat)} {stream : List Symbol} {view : View}
    {length : Nat} (h : decode stream = some (view, length)) (hne : stream ≠ []) (fuel : Nat) :
    receivePart decode (fuel + 1) stream =
      (view :: (receivePart decode fuel (stream.drop length)).1, (receivePart decode fuel (stream.drop length)).2) := by
  cases stream with
  | nil => exact absurd rfl hne
  | cons symbol rest => rw [receivePart, h]; simp

variable (framing : Framing Symbol Item View)

-- Of these items the first ones have come in whole, and of the next one a part.
structure Arrived (items : List Item) (stream : List Symbol) (received : List View × List Symbol)
    (whole rest : List Item) : Prop where
  items : items = whole ++ rest
  views : received.1 = whole.map framing.view
  stream : stream = whole.flatMap framing.encode ++ received.2
  begun : received.2 <+: rest.flatMap framing.encode
  part : ∀ next more, rest = next :: more → received.2.length < (framing.encode next).length

variable {framing} in
-- With all of the stream in, nothing is kept.
theorem Arrived.complete {items : List Item} {stream : List Symbol} {received : List View × List Symbol}
    {whole rest : List Item} (h : Arrived framing items stream received whole rest)
    (hall : stream = items.flatMap framing.encode) : received = (items.map framing.view, []) := by
  have hkept : received.2 = rest.flatMap framing.encode := by
    have hstream := h.stream
    rw [hall, h.items, List.flatMap_append] at hstream
    exact (List.append_cancel_left hstream).symm
  cases rest with
  | nil =>
      obtain ⟨views, kept⟩ := received
      rw [h.items, List.append_nil, ← h.views, show kept = [] from hkept]
  | cons next more =>
      have hless := h.part next more rfl
      rw [hkept, List.flatMap_cons, List.length_append] at hless
      omega

-- A part of an encoded item is not decoded.
variable (hpart : ∀ item count, count < (framing.encode item).length →
  framing.decode ((framing.encode item).take count) = none)

include hpart

theorem receivePart_arrived (items : List Item) (stream : List Symbol) (fuel : Nat) (hfuel : stream.length ≤ fuel)
    (hstream : stream <+: items.flatMap framing.encode) :
    ∃ whole rest, Arrived framing items stream (receivePart framing.decode fuel stream) whole rest := by
  induction items generalizing stream fuel with
  | nil =>
      obtain rfl := List.prefix_nil.mp hstream
      refine ⟨[], [], rfl, ?_, ?_, ?_, fun _ _ h => by cases h⟩ <;> cases fuel <;> simp [receivePart]
  | cons item rest ih =>
      rw [List.flatMap_cons] at hstream
      by_cases hless : stream.length < (framing.encode item).length
      · have hitem := List.prefix_of_prefix_length_le hstream (List.prefix_append _ _) (Nat.le_of_lt hless)
        have hnone := hpart item stream.length hless
        rw [← List.prefix_iff_eq_take.mp hitem] at hnone
        rw [receivePart_none hnone]
        refine ⟨[], item :: rest, rfl, rfl, rfl, hstream, ?_⟩
        rintro next more h
        cases h
        exact hless
      · obtain ⟨more, rfl⟩ := List.prefix_of_prefix_length_le (List.prefix_append _ _) hstream (Nat.le_of_not_lt hless)
        have hpos := List.length_pos_iff.mpr (framing.encode_ne_nil item)
        rw [List.length_append] at hfuel
        obtain ⟨fuel, rfl⟩ := Nat.exists_eq_add_of_le' (show 1 ≤ fuel by omega)
        obtain ⟨whole, rest, h⟩ := ih more fuel (by omega) ((List.prefix_append_right_inj _).mp hstream)
        have hne : framing.encode item ++ more ≠ [] := List.append_ne_nil_of_left_ne_nil (framing.encode_ne_nil item) _
        rw [receivePart_some (framing.decode_encode item more) hne, List.drop_left]
        refine ⟨item :: whole, rest, ?_, ?_, ?_, h.begun, h.part⟩
        · rw [h.items, List.cons_append]
        · rw [h.views, List.map_cons]
        · rw [List.flatMap_cons, List.append_assoc, ← h.stream]

theorem feed_arrived {items : List Item} {stream chunk : List Symbol} {received : List View × List Symbol}
    {whole rest : List Item} (h : Arrived framing items stream received whole rest)
    (hchunk : stream ++ chunk <+: items.flatMap framing.encode) :
    ∃ whole rest, Arrived framing items (stream ++ chunk) (feed framing.decode received chunk) whole rest := by
  have hmore : received.2 ++ chunk <+: rest.flatMap framing.encode := by
    rwa [h.stream, h.items, List.flatMap_append, List.append_assoc, List.prefix_append_right_inj] at hchunk
  obtain ⟨whole', rest', h'⟩ := receivePart_arrived framing hpart rest _ _ (Nat.le_refl _) hmore
  refine ⟨whole ++ whole', rest', ?_, ?_, ?_, h'.begun, h'.part⟩
  · rw [h.items, h'.items, List.append_assoc]
  · rw [feed, h.views, h'.views, List.map_append]
  · rw [h.stream, List.append_assoc, h'.stream, List.flatMap_append, List.append_assoc]
    rfl

-- However a stream is cut into chunks, and wherever it ends, what came in whole
-- is recovered.
theorem feed_chunks (items : List Item) (chunks : List (List Symbol))
    (h : chunks.flatten <+: items.flatMap framing.encode) :
    ∃ whole rest, Arrived framing items chunks.flatten (chunks.foldl (feed framing.decode) ([], [])) whole rest := by
  induction chunks using List.reverseRecOn with
  | nil =>
      refine ⟨[], items, rfl, rfl, rfl, List.nil_prefix, fun next _ _ => ?_⟩
      exact List.length_pos_iff.mpr (framing.encode_ne_nil next)
  | append_singleton chunks chunk ih =>
      have hflatten : (chunks ++ [chunk]).flatten = chunks.flatten ++ chunk := by simp
      rw [hflatten] at h ⊢
      obtain ⟨whole, rest, harrived⟩ := ih ((List.prefix_append _ _).trans h)
      rw [List.foldl_append]
      exact feed_arrived framing hpart harrived h

end Incremental

section Terminated

variable (separator : Symbol)

-- Records written one after another, each with a terminator.
def terminated (records : List (List Symbol)) : List Symbol := records.flatMap (· ++ [separator])

@[simp] theorem terminated_cons (record : List Symbol) (records : List (List Symbol)) :
    terminated separator (record :: records) = record ++ separator :: terminated separator records := by
  rw [terminated, List.flatMap_cons, List.append_assoc, List.singleton_append, terminated]

-- Nothing follows the last terminator.
theorem splitOn_terminated [BEq Symbol] [LawfulBEq Symbol] (records : List (List Symbol))
    (h : ∀ record ∈ records, separator ∉ record) :
    (terminated separator records).splitOn separator = records ++ [[]] := by
  induction records with
  | nil => rfl
  | cons record rest ih =>
      obtain ⟨hfirst, hrest⟩ := List.forall_mem_cons.mp h
      rw [terminated_cons, List.splitOn_append_cons_self_of_not_mem hfirst, ih hrest, List.cons_append]

theorem getLast?_terminated (records : List (List Symbol)) (h : records ≠ []) :
    (terminated separator records).getLast? = some separator := by
  induction records with
  | nil => exact absurd rfl h
  | cons record rest ih =>
      rw [terminated_cons, List.getLast?_append_cons]
      cases rest with
      | nil => rfl
      | cons next more =>
          have hlast := ih (List.cons_ne_nil _ _)
          rw [List.getLast?_cons, hlast]
          rfl

-- A record in front of a terminator ends a piece, whatever comes before it.
theorem exists_suffix_splitOn [BEq Symbol] [LawfulBEq Symbol] (front record after : List Symbol)
    (h : separator ∉ record) :
    ∃ piece ∈ (front ++ record ++ separator :: after).splitOn separator, record <:+ piece := by
  have hpiece : ∃ piece ∈ (front ++ record).splitOn separator, record <:+ piece := by
    induction front with
    | nil => exact ⟨record, by simp [List.splitOn_eq_singleton h], List.suffix_refl record⟩
    | cons symbol rest ih =>
        obtain ⟨piece, hmem, hsuffix⟩ := ih
        rw [List.cons_append, List.splitOn_cons_eq_if_modifyHead]
        split
        · exact ⟨piece, List.mem_cons_of_mem _ hmem, hsuffix⟩
        · cases hsplit : (rest ++ record).splitOn separator with
          | nil => exact absurd hsplit (List.splitOn_ne_nil _ _)
          | cons first others =>
              rw [hsplit] at hmem
              rcases List.mem_cons.mp hmem with rfl | hmem
              · exact ⟨symbol :: piece, List.mem_cons_self, hsuffix.trans (List.suffix_cons _ _)⟩
              · exact ⟨piece, List.mem_cons_of_mem _ hmem, hsuffix⟩
  obtain ⟨piece, hmem, hsuffix⟩ := hpiece
  rw [List.splitOn_append_cons_self]
  exact ⟨piece, List.mem_append_left _ hmem, hsuffix⟩

-- After a terminator, or at the start, it is a piece of its own.
theorem mem_splitOn_of_terminated [BEq Symbol] [LawfulBEq Symbol] (front record after : List Symbol)
    (h : separator ∉ record) (hfront : front = [] ∨ front.getLast? = some separator) :
    record ∈ (front ++ record ++ separator :: after).splitOn separator := by
  rw [List.splitOn_append_cons_self]
  apply List.mem_append_left
  rcases hfront with rfl | hlast
  · simp [List.splitOn_eq_singleton h]
  · obtain ⟨start, rfl⟩ := List.getLast?_eq_some_iff.mp hlast
    rw [List.append_assoc, List.singleton_append, List.splitOn_append_cons_self, List.splitOn_eq_singleton h]
    exact List.mem_append_right _ (List.mem_singleton_self _)

end Terminated

end Library.Stream
