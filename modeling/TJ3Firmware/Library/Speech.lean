import Mathlib.Computability.Language
import Mathlib.Order.CompletePartialOrder
import TJ3Firmware.Library.Threads

namespace Library.Speech

open Library.Interaction Library.Threads Computability

variable {Op Op' : Type} {Reply : Op → Type} {Reply' : Op' → Type} {ε ε' α β Item Out : Type}

-- Whatever the environment replies, the program says the items of a word of this
-- language, one after another: all of them when it returns, and at every moment
-- before a part of them from the front.
structure Says (output : Event Op Reply → Option Out) (encode : Item → List Out) (prog : Prog Op Reply ε α)
    (words : Language Item) : Prop where
  moment : ∀ trace, Reaches prog trace → ∃ word ∈ words, trace.filterMap output <+: word.flatMap encode
  returned : ∀ trace value, Runs prog trace (.ok value) → ∃ word ∈ words, trace.filterMap output = word.flatMap encode

section Fronts

-- What there is of a word when it may break off.
def fronts (word : List Item) : Language Item := {front | front <+: word}

theorem one_le_fronts (word : List Item) : 1 ≤ fronts word := by
  rintro front rfl
  exact List.nil_prefix

theorem singleton_mul_fronts_le (item : Item) (word : List Item) : {[item]} * fronts word ≤ fronts (item :: word) := by
  rintro _ ⟨_, rfl, front, hfront, rfl⟩
  exact (List.prefix_cons_inj item).mpr hfront

end Fronts

section Says

variable {output : Event Op Reply → Option Out} {encode : Item → List Out} {prog : Prog Op Reply ε α}
  {words first second : Language Item}

theorem says_of_emits [∀ op, Nonempty (Reply op)] (word : List Item) (h : Emits output prog (word.flatMap encode)) :
    Says output encode prog {word} where
  moment trace htrace := by
    obtain ⟨run, hfront⟩ := htrace.exists_run
    exact ⟨word, rfl, (hfront.filterMap output).trans (h run.trace run.outcome run.runs).1⟩
  returned trace value hruns := ⟨word, rfl, (h trace _ hruns).2 value rfl⟩

theorem Says.mono (h : Says output encode prog first) (hle : first ≤ second) : Says output encode prog second where
  moment trace htrace := by
    obtain ⟨word, hword, hfront⟩ := h.moment trace htrace
    exact ⟨word, hle hword, hfront⟩
  returned trace value hruns := by
    obtain ⟨word, hword, hsame⟩ := h.returned trace value hruns
    exact ⟨word, hle hword, hsame⟩

theorem says_quiet (quiet : Op → Prop) (hquiet : CallsOnly quiet prog)
    (hnone : ∀ event : Event Op Reply, quiet event.op → output event = none) : Says output encode prog 1 where
  moment trace htrace := by
    have hevents := htrace.forall_event quiet hquiet
    rw [List.filterMap_eq_nil_iff.mpr fun event hevent => hnone event (hevents event hevent)]
    exact ⟨[], rfl, List.nil_prefix⟩
  returned trace value hruns := by
    have hevents := forall_event_of_callsOnly quiet prog trace _ hquiet hruns
    rw [List.filterMap_eq_nil_iff.mpr fun event hevent => hnone event (hevents event hevent)]
    exact ⟨[], rfl, rfl⟩

theorem says_pure (value : α) : Says output encode (pure value : Prog Op Reply ε α) 1 :=
  says_quiet (fun _ => False) trivial fun _ h => absurd h id

-- What is known of a value that was returned holds where it is used.
theorem says_bind_of_post (post : α → Prop) {next : α → Prog Op Reply ε β} (h : Says output encode prog first)
    (hpost : ∀ trace value, Runs prog trace (.ok value) → post value)
    (hnext : ∀ value, post value → Says output encode (next value) second) (hsecond : ∃ word, word ∈ second) :
    Says output encode (prog >>= next) (first * second) where
  moment trace htrace := by
    rcases reaches_bind prog next trace htrace with hfirst | ⟨before, value, after, rfl, hfirst, hlast⟩
    · obtain ⟨word, hword, hfront⟩ := h.moment trace hfirst
      obtain ⟨more, hmore⟩ := hsecond
      refine ⟨word ++ more, Language.append_mem_mul hword hmore, ?_⟩
      rw [List.flatMap_append]
      exact hfront.trans (List.prefix_append _ _)
    · obtain ⟨word, hword, hbefore⟩ := h.returned before value hfirst
      obtain ⟨more, hmore, hafter⟩ := (hnext value (hpost before value hfirst)).moment after hlast
      refine ⟨word ++ more, Language.append_mem_mul hword hmore, ?_⟩
      rw [List.filterMap_append, List.flatMap_append, hbefore]
      exact (List.prefix_append_right_inj _).mpr hafter
  returned trace result hruns := by
    obtain ⟨before, value, after, rfl, hfirst, hlast⟩ := (runs_bind_ok prog next trace result).mp hruns
    obtain ⟨word, hword, hbefore⟩ := h.returned before value hfirst
    obtain ⟨more, hmore, hafter⟩ := (hnext value (hpost before value hfirst)).returned after result hlast
    refine ⟨word ++ more, Language.append_mem_mul hword hmore, ?_⟩
    rw [List.filterMap_append, List.flatMap_append, hbefore, hafter]

theorem says_bind {next : α → Prog Op Reply ε β} (h : Says output encode prog first)
    (hnext : ∀ value, Says output encode (next value) second) (hsecond : ∃ word, word ∈ second) :
    Says output encode (prog >>= next) (first * second) :=
  says_bind_of_post (fun _ => True) h (fun _ _ _ => trivial) (fun value _ => hnext value) hsecond

theorem says_quiet_bind (quiet : Op → Prop) {next : α → Prog Op Reply ε β} (hquiet : CallsOnly quiet prog)
    (hnone : ∀ event : Event Op Reply, quiet event.op → output event = none)
    (hnext : ∀ value, Says output encode (next value) second) (hsecond : ∃ word, word ∈ second) :
    Says output encode (prog >>= next) second := by
  have hbind := says_bind (says_quiet quiet hquiet hnone) hnext hsecond
  rwa [one_mul] at hbind

theorem says_bind_pure {next : α → Prog Op Reply ε β} (h : Says output encode prog first)
    (hnext : ∀ value, ∃ result, next value = pure result) : Says output encode (prog >>= next) first := by
  have hpure : ∀ value, Says output encode (next value) 1 := by
    intro value
    obtain ⟨result, hresult⟩ := hnext value
    rw [hresult]
    exact says_pure result
  have hbind := says_bind h hpure ⟨[], rfl⟩
  rwa [mul_one] at hbind

-- Words of a language again and again.
theorem says_kstar_bind {next : α → Prog Op Reply ε β} (h : Says output encode prog words∗)
    (hnext : ∀ value, Says output encode (next value) words∗) : Says output encode (prog >>= next) words∗ := by
  have hbind := says_bind h hnext ⟨[], Language.nil_mem_kstar _⟩
  rwa [kstar_mul_kstar] at hbind

end Says

section Embed

variable {call : Op → Op'} {back : (op : Op) → Reply' (call op) → Reply op} {error : ε → ε'}
  {output : Event Op Reply → Option Out} {output' : Event Op' Reply' → Option Out} {encode : Item → List Out}

-- A thread says what a program says that is a part of it.
theorem says_embed (part : Event Op' Reply' → Option (Event Op Reply))
    (hpart : ∀ op reply, part ⟨call op, reply⟩ = some ⟨op, back op reply⟩)
    (houtput : ∀ event, output' event = (part event).bind output) {prog : Prog Op Reply ε α} {words : Language Item}
    (h : Says output encode prog words) : Says output' encode (embed call back error prog) words := by
  have hfilter : ∀ trace : List (Event Op' Reply'), trace.filterMap output' = (trace.filterMap part).filterMap output := by
    intro trace
    rw [List.filterMap_filterMap]
    exact List.filterMap_congr fun event _ => houtput event
  constructor
  · intro trace htrace
    rw [hfilter]
    exact h.moment _ (reaches_of_embed part prog trace htrace hpart)
  · intro trace value hruns
    rw [hfilter]
    exact h.returned _ value (runs_of_embed part prog trace value hruns hpart)

end Embed

end Library.Speech
