import TJ3Firmware.FsHandler.AppendSafety

namespace TJ3Firmware

open Library.Memory Library.Interaction Library.Stream

section Files

-- The bytes of a file. There are none in a file that does not exist.
def Files.text (files : Files) (path : List Byte) : List Byte := (files.content path).getD []

end Files

section Calls

-- A call, what it returned and what it has left in its file.
structure Entry where
  call : LogCall
  rc : Int
  piece : List Byte

-- As many bytes of the line as the call returned, and then the newline that the
-- line may lack or nothing. The caller cannot tell which.
def Entry.Left (entry : Entry) : Prop :=
  entry.rc ≤ entry.call.line.length ∧ (entry.piece = entry.call.line.take entry.rc.toNat ∨
    ¬EndsLine entry.call.line ∧ entry.piece = entry.call.line.take entry.rc.toNat ++ [newline])

-- What entries have left in the file of a path.
def piecesAt (path : List Byte) (entries : List Entry) : List Byte :=
  (entries.filter fun entry => logPath entry.call.name = path).flatMap Entry.piece

theorem piecesAt_append (path : List Byte) (before after : List Entry) :
    piecesAt path (before ++ after) = piecesAt path before ++ piecesAt path after := by
  rw [piecesAt, List.filter_append, List.flatMap_append, piecesAt, piecesAt]

theorem piecesAt_cons (path : List Byte) (entry : Entry) (rest : List Entry) :
    piecesAt path (entry :: rest) = piecesAt path [entry] ++ piecesAt path rest := piecesAt_append path [entry] rest

theorem piecesAt_own (entry : Entry) : piecesAt (logPath entry.call.name) [entry] = entry.piece := by
  simp [piecesAt]

-- What entries have made of the files.
structure Recorded (calls : List LogCall) (files next : Files) (rcs : List Int) (entries : List Entry) : Prop where
  made : entries.map Entry.call = calls
  returned : entries.map Entry.rc = rcs
  left : ∀ entry ∈ entries, entry.Left
  text : ∀ path, next.text path = files.text path ++ piecesAt path entries
  kept : ∀ path, (∀ call ∈ calls, path ≠ logPath call.name) → next.content path = files.content path

end Calls

section Step

variable {call : LogCall} {files next : Files}

theorem Recorded.append {calls more : List LogCall} {first middle last : Files} {rcs rcs' : List Int}
    {entries entries' : List Entry} (h : Recorded calls first middle rcs entries)
    (h' : Recorded more middle last rcs' entries') :
    Recorded (calls ++ more) first last (rcs ++ rcs') (entries ++ entries') where
  made := by rw [List.map_append, h.made, h'.made]
  returned := by rw [List.map_append, h.returned, h'.returned]
  left := List.forall_mem_append.mpr ⟨h.left, h'.left⟩
  text := fun path => by rw [h'.text, h.text, List.append_assoc, piecesAt_append]
  kept := by
    intro path hpath
    have hcalls := List.forall_mem_append.mp hpath
    rw [h'.kept path hcalls.2, h.kept path hcalls.1]

end Step

section Damage

-- The whole line is there with a newline after it.
def Entry.Whole (entry : Entry) : Prop := entry.piece = entry.call.record ++ [newline]

-- The file of an entry as it was before the call.
def textBefore (files : Files) (before : List Entry) (entry : Entry) : List Byte :=
  files.text (logPath entry.call.name) ++ piecesAt (logPath entry.call.name) before

-- What a reader of the file finds of an entry that is whole.
structure Found (files final : Files) (before : List Entry) (entry : Entry) : Prop where
  ends : ∃ record ∈ (final.text (logPath entry.call.name)).splitOn newline, entry.call.record <:+ record
  own : textBefore files before entry = [] ∨ (textBefore files before entry).getLast? = some newline →
    entry.call.record ∈ (final.text (logPath entry.call.name)).splitOn newline

-- With a line that has its newline the caller can tell.
theorem Entry.Left.whole {entry : Entry} (h : entry.Left) (hends : EndsLine entry.call.line)
    (hrc : entry.rc = entry.call.line.length) : entry.Whole := by
  rcases h.2 with hpiece | ⟨hopen, -⟩
  · have hlast := (endsLine_iff entry.call.line entry.call.nonempty).mp hends
    rw [hrc, Int.toNat_natCast, List.take_length] at hpiece
    exact hpiece.trans (entry.call.record_newline_of_eq hlast)
  · exact absurd hends hopen

theorem Recorded.found {calls : List LogCall} {files final : Files} {rcs : List Int} {before after : List Entry}
    {entry : Entry} (h : Recorded calls files final rcs (before ++ entry :: after)) (hwhole : entry.Whole) :
    Found files final before entry := by
  have hsplit : final.text (logPath entry.call.name) = textBefore files before entry ++ entry.call.record ++
      newline :: piecesAt (logPath entry.call.name) after := by
    rw [h.text, piecesAt_append, piecesAt_cons, piecesAt_own, hwhole, textBefore]
    simp
  have hrecord := entry.call.newline_not_mem_record
  constructor
  · rw [hsplit]
    exact exists_suffix_splitOn newline _ _ _ hrecord
  · rw [hsplit]
    exact mem_splitOn_of_terminated newline _ _ _ hrecord

end Damage

end TJ3Firmware
