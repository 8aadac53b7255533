import TJ3Firmware.FsHandler

namespace TJ3Firmware

open Library.Memory Library.Interaction

-- The calls of a listing, on the one directory it has.
inductive DirCall
  | fsOpendir (path : List Byte)
  | fsReaddir
  | fsClosedir
  deriving Repr, DecidableEq

-- fs_readdir also fills in entry.name, of which the loop reads the first byte.
abbrev DirReply : DirCall → Type
  | .fsOpendir _ => Int
  | .fsReaddir => Int × List Byte
  | .fsClosedir => Int

abbrev DirEvent := Event DirCall DirReply

-- A directory with more entries than the rounds that were given.
inductive Endless
  | listing
  deriving Repr, DecidableEq

abbrev Listing (α : Type) := Prog DirCall DirReply Endless α

def fsOpendir (path : List Byte) : Listing Int := Prog.perform (DirCall.fsOpendir path)

def fsReaddir : Listing (Int × List Byte) := Prog.perform DirCall.fsReaddir

def fsClosedir : Listing Int := Prog.perform DirCall.fsClosedir

-- while (1), left at an error or at an empty name
def listEntries : Nat → Listing Unit
  | 0 => .fail .listing
  | rounds + 1 => do
      let (rc, name) ← fsReaddir
      if rc < 0 then pure ()
      else if name.headD 0x00#8 = 0x00#8 then pure ()
      -- the entry is only logged
      else listEntries rounds

def fsHandlerLs (rounds : Nat) : Listing Unit := do
  let rc ← fsOpendir MOUNT_POINT
  if rc < 0 then pure ()
  else do
    listEntries rounds
    let _ ← fsClosedir
    pure ()

section Ends

-- A reply after which the loop goes on.
def isEntry : DirEvent → Bool
  | ⟨.fsReaddir, (rc, name)⟩ => 0 ≤ rc && name.headD 0x00#8 != 0x00#8
  | _ => false

theorem listEntries_calls (rounds : Nat) : CallsOnly (· = .fsReaddir) (listEntries rounds) := by
  induction rounds with
  | zero => trivial
  | succ rounds ih => simp [listEntries, fsReaddir, ih]

-- The rounds run out only after as many entries.
theorem listEntries_endless (rounds : Nat) (trace : List DirEvent) (error : Endless)
    (h : Runs (listEntries rounds) trace (.error error)) : trace.countP isEntry = rounds := by
  induction rounds generalizing trace with
  | zero =>
      obtain ⟨rfl, -⟩ := (runs_fail _ _ _).mp h
      rfl
  | succ rounds ih =>
      obtain ⟨⟨rc, name⟩, rest, rfl, hrest⟩ := (runs_perform_bind DirCall.fsReaddir _ _ _).mp h
      simp only at hrest
      by_cases hrc : rc < 0
      · rw [if_pos hrc] at hrest
        cases ((runs_pure _ _ _).mp hrest).2
      rw [if_neg hrc] at hrest
      by_cases hname : name.headD 0x00#8 = 0x00#8
      · rw [if_pos hname] at hrest
        cases ((runs_pure _ _ _).mp hrest).2
      rw [if_neg hname] at hrest
      have hentry : isEntry ⟨.fsReaddir, (rc, name)⟩ = true := by
        rw [isEntry, Bool.and_eq_true, decide_eq_true_iff, bne_iff_ne]
        exact ⟨by omega, hname⟩
      rw [List.countP_cons_of_pos hentry, ih rest hrest]

-- The ways fs_handler_ls can go.
inductive ListRun (rounds : Nat) : List DirEvent → Except Endless Unit → Prop
  | refused (opening : Int) (hopening : opening < 0) : ListRun rounds [⟨.fsOpendir MOUNT_POINT, opening⟩] (.ok ())
  | listed (opening closing : Int) (entries : List DirEvent) (hopening : 0 ≤ opening)
      (hentries : ∀ event ∈ entries, event.op = .fsReaddir) :
      ListRun rounds (⟨.fsOpendir MOUNT_POINT, opening⟩ :: (entries ++ [⟨.fsClosedir, closing⟩])) (.ok ())
  | endless (opening : Int) (entries : List DirEvent) (error : Endless) (hcount : entries.countP isEntry = rounds) :
      ListRun rounds (⟨.fsOpendir MOUNT_POINT, opening⟩ :: entries) (.error error)

theorem fsHandlerLs_runs (rounds : Nat) (trace : List DirEvent) (outcome : Except Endless Unit)
    (h : Runs (fsHandlerLs rounds) trace outcome) : ListRun rounds trace outcome := by
  unfold fsHandlerLs at h
  obtain ⟨(opening : Int), afterOpen, rfl, hopened⟩ :=
    (runs_perform_bind (DirCall.fsOpendir MOUNT_POINT) _ _ _).mp h
  by_cases hopening : opening < 0
  · rw [if_pos hopening] at hopened
    obtain ⟨rfl, rfl⟩ := (runs_pure _ _ _).mp hopened
    exact .refused opening hopening
  rw [if_neg hopening] at hopened
  rcases (runs_bind _ _ _ _).mp hopened with ⟨error, rfl, hfailed⟩ | ⟨entries, _, afterEntries, rfl, hentries, hclosed⟩
  · exact .endless opening afterOpen error (listEntries_endless rounds afterOpen error hfailed)
  · obtain ⟨(closing : Int), rest, rfl, hrest⟩ := (runs_perform_bind DirCall.fsClosedir _ _ _).mp hclosed
    obtain ⟨rfl, rfl⟩ := (runs_pure _ _ _).mp hrest
    have hcalls := forall_event_of_callsOnly _ _ _ _ (listEntries_calls rounds) hentries
    exact .listed opening closing entries (by omega) hcalls

-- A listing that ends is one that returns.
theorem fsHandlerLs_returns (rounds : Nat) (run : Run (fsHandlerLs rounds))
    (hends : run.trace.countP isEntry < rounds) : run.outcome = .ok () := by
  obtain ⟨trace, outcome, hruns⟩ := run
  dsimp only at hends ⊢
  cases fsHandlerLs_runs rounds trace outcome hruns with
  | refused opening hopening => rfl
  | listed opening closing entries hopening hentries => rfl
  | endless opening entries error hcount =>
      rw [List.countP_cons, hcount] at hends
      omega

end Ends

end TJ3Firmware
