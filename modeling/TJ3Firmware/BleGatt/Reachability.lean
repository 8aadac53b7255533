import TJ3Firmware.BleGatt.References
import TJ3Firmware.MainLoop

namespace TJ3Firmware

open Library.Interaction

variable {Conn : Type} [DecidableEq Conn]

section Silence

-- Nobody is connected and nobody can connect.
def Silent (device : Device Conn) : Prop := device.link.live = ∅ ∧ device.link.advertising ≠ .active

-- Nor does anything that can still happen start advertising: no callback that
-- the stack can make, and no round of the main loop.
structure Unreachable (device : Device Conn) : Prop where
  silent : Silent device
  callbacks : ∀ callback arrived, Arrives callback device.link arrived →
    ∀ run : Run (callback.handle device.currentConn), ∀ event ∈ run.trace, event.op ≠ .leAdvStart
  mainLoop : ∀ around rounds state (run : Run (mainLoop around rounds state : MainThread Conn _)),
    ∀ event ∈ run.trace, event.op ≠ .bluetooth .leAdvStart

-- Only a failed attempt is still reported, and the callback does nothing then.
theorem Silent.arrives {device : Device Conn} (h : Silent device) (callback : Callback Conn) (arrived : Link Conn)
    (harrives : Arrives callback device.link arrived) :
    callback.handle device.currentConn = pure device.currentConn ∧ arrived.live = device.link.live ∧
      arrived.advertising = device.link.advertising := by
  obtain ⟨hlive, hinactive⟩ := h
  cases callback with
  | connected conn err =>
      obtain ⟨-, harrives⟩ := harrives
      by_cases herr : err = 0
      · rw [if_pos herr] at harrives
        exact absurd harrives.1 hinactive
      · rw [if_neg herr] at harrives
        obtain ⟨hsame, hadvertising⟩ := harrives
        refine ⟨if_pos herr, hsame, ?_⟩
        exact hadvertising.resolve_right fun h => hinactive h.1
  | disconnected conn reason =>
      have hconn := harrives.1
      rw [hlive] at hconn
      exact absurd hconn (Finset.notMem_empty conn)

theorem unreachable_iff_silent (device : Device Conn) : Unreachable device ↔ Silent device := by
  constructor
  · exact Unreachable.silent
  · intro hsilent
    refine ⟨hsilent, ?_, ?_⟩
    · intro callback arrived harrives ⟨trace, outcome, hruns⟩ event hevent
      obtain ⟨hpure, -⟩ := hsilent.arrives callback arrived harrives
      rw [hpure] at hruns
      obtain ⟨rfl, -⟩ := (runs_pure _ _ _).mp hruns
      cases hevent
    · intro around rounds state run event hevent hstart
      have hsilent := forall_event_of_callsOnly _ _ _ _ (mainLoop_silent around rounds state) run.runs event hevent
      rw [hstart] at hsilent
      exact hsilent trivial

theorem Follows.silent {device next : Device Conn} (h : Follows device next) (hsilent : Silent device) :
    Silent next := by
  cases h with
  | callback callback _ arrived last trace currentConn harrives hruns hpath =>
      obtain ⟨hpure, hlive, hadvertising⟩ := hsilent.arrives callback arrived harrives
      rw [hpure] at hruns
      obtain ⟨rfl, -⟩ := (runs_pure _ _ _).mp hruns
      cases path_nil_iff.mp hpath
      exact ⟨hlive.trans hsilent.1, fun hactive => hsilent.2 (hadvertising.symm.trans hactive)⟩

theorem silent_of_steps {device last : Device Conn} (hsilent : Silent device)
    (h : Relation.ReflTransGen Follows device last) : Silent last := by
  induction h with
  | refl => exact hsilent
  | tail _ step ih => exact step.silent ih

end Silence

section Accounted

-- After an init with bt_enable: advertising was tried, and what ended it is
-- the live connection if there is one.
def Accounted (link : Link Conn) : Prop :=
  link.advertising ≠ .off ∧ (link.advertising = .connected ↔ link.live.Nonempty)

omit [DecidableEq Conn] in
theorem Accounted.silent_iff {device : Device Conn} (h : Accounted device.link) :
    Silent device ↔ device.link.advertising = .refused ∨ device.link.advertising = .aborted := by
  obtain ⟨hoff, hconnected⟩ := h
  rw [Silent, ← Finset.not_nonempty_iff_eq_empty, ← hconnected]
  cases hadvertising : device.link.advertising <;> simp_all

theorem start_ne (advertising : Advertising) (rc : Int) :
    advertising.start rc ≠ .off ∧ advertising.start rc ≠ .connected := by
  unfold Advertising.start
  split <;> simp

theorem handled_accounted (callback : Callback Conn) {device next : Device Conn} {arrived : Link Conn}
    (hbalanced : ConnBalanced device) (h : Accounted device.link) (harrives : Arrives callback device.link arrived)
    (hnext : Handled callback device arrived next) : Accounted next.link := by
  cases callback with
  | connected conn err =>
      obtain ⟨-, harrives⟩ := harrives
      by_cases herr : err = 0
      · simp only [Handled, if_pos herr] at harrives hnext
        obtain ⟨-, hlive, hended⟩ := harrives
        subst hnext
        refine ⟨by simp [hended], iff_of_true hended ?_⟩
        simp [hlive]
      · simp only [Handled, if_neg herr] at harrives hnext
        obtain ⟨hlive, hadvertising⟩ := harrives
        subst hnext
        obtain ⟨hoff, hconnected⟩ := h
        rw [Accounted, hlive]
        rcases hadvertising with hsame | ⟨hactive, haborted⟩
        · rw [hsame]
          exact ⟨hoff, hconnected⟩
        · -- nothing was live while advertising was active
          rw [hactive] at hconnected
          rw [haborted]
          refine ⟨by simp, iff_of_false (by simp) ?_⟩
          intro hsome
          cases hconnected.mpr hsome
  | disconnected conn reason =>
      obtain ⟨hconn, rfl⟩ := harrives
      obtain ⟨rc, rfl⟩ := hnext
      obtain ⟨hoff, hconnected⟩ := start_ne device.link.advertising rc
      refine ⟨hoff, iff_of_false hconnected ?_⟩
      simp [hbalanced.erase_eq_empty conn hconn]

theorem Initialised.accounted {device : Device Conn} (h : Initialised 0 device) : Accounted device.link := by
  cases h with
  | init trace link hruns henable hpath =>
      obtain ⟨(err : Int), rest, rfl, hrest⟩ := (runs_perform_bind BtCall.enable _ _ _).mp hruns
      obtain ⟨enabled, step, hstart⟩ := (path_cons_iff _ _).mp hpath
      cases step
      by_cases herr : err ≠ 0
      · rw [if_pos herr] at hrest
        obtain ⟨rfl, -⟩ := (runs_pure _ _ _).mp hrest
        have hsame : 0 = err := by simpa using henable
        exact absurd hsame.symm herr
      · rw [if_neg herr] at hrest
        obtain ⟨rc, after, rfl, hafter⟩ := (runs_perform_bind BtCall.leAdvStart _ _ _).mp hrest
        obtain ⟨rfl, -⟩ := (runs_pure _ _ _).mp hafter
        obtain ⟨_, hadvertised, hnil⟩ := (path_cons_iff _ _).mp hstart
        cases hadvertised
        cases path_nil_iff.mp hnil
        obtain ⟨hoff, hconnected⟩ := start_ne .off rc
        exact ⟨hoff, iff_of_false hconnected (by simp [Link.boot])⟩

theorem accounted_of_steps {first device : Device Conn} (hbalanced : ConnBalanced first)
    (h : Accounted first.link) (hsteps : Relation.ReflTransGen Follows first device) : Accounted device.link := by
  induction hsteps with
  | refl => exact h
  | tail hsteps step ih =>
      have hbefore := balanced_of_steps hbalanced hsteps
      obtain ⟨callback, arrived, harrives, hhandled⟩ := step.handled hbefore
      exact handled_accounted callback hbefore ih harrives hhandled

end Accounted

-- With Bluetooth enabled, the device is unreachable exactly when the last
-- bt_le_adv_start failed, or a failed attempt has ended the advertising since.
-- It then stays so.
theorem unreachable_iff (first device : Device Conn) (hinit : Initialised 0 first)
    (hsteps : Relation.ReflTransGen Follows first device) :
    (Unreachable device ↔ device.link.advertising = .refused ∨ device.link.advertising = .aborted) ∧
      (Unreachable device → ∀ later, Relation.ReflTransGen Follows device later → Unreachable later) := by
  constructor
  · rw [unreachable_iff_silent]
    exact (accounted_of_steps hinit.balanced hinit.accounted hsteps).silent_iff
  · intro h later hlater
    exact (unreachable_iff_silent later).mpr (silent_of_steps h.silent hlater)

section Example

theorem unreachable_iff_connected :
    (Unreachable connectedDevice ↔
      connectedDevice.link.advertising = .refused ∨ connectedDevice.link.advertising = .aborted) ∧
      (Unreachable connectedDevice →
        ∀ later, Relation.ReflTransGen Follows connectedDevice later → Unreachable later) :=
  unreachable_iff advertisingDevice connectedDevice advertisingDevice_initialised (.single connectedDevice_follows)

-- Bluetooth comes up, but advertising does not.
def refusedReplies : (call : BtCall Nat) → BtReply Nat call
  | .leAdvStart => (-12 : Int)
  | call => goodReplies call

def refusedDevice : Device Nat := ⟨none, ⟨∅, .refused, fun _ => 0⟩⟩

theorem refusedDevice_initialised : Initialised 0 refusedDevice := by
  refine .init _ _ (bleGattInit.runWith refusedReplies).runs List.mem_cons_self ?_
  exact .cons _ _ _ _ _ rfl (.cons _ _ _ _ _ rfl (.nil _))

theorem failed_start_unreachable : ¬∀ first device : Device Nat, Initialised 0 first →
    Relation.ReflTransGen Follows first device → ¬Unreachable device := by
  intro h
  apply h refusedDevice refusedDevice refusedDevice_initialised .refl
  exact (unreachable_iff_silent refusedDevice).mpr ⟨rfl, by simp [refusedDevice]⟩

end Example

end TJ3Firmware
