import Mathlib.Data.List.Basic
import Mathlib.Logic.Function.Basic

namespace Library.KeyedStore

-- A value for each key, with operations that are each about one key.
structure Keyed (κ V Op R : Type) where
  target : Op → κ
  step : Op → V → R × V

namespace Keyed

variable {κ V Op R : Type} [DecidableEq κ]

section Serve

variable (store : Keyed κ V Op R)

def apply (op : Op) (values : κ → V) : R × (κ → V) :=
  ((store.step op (values (store.target op))).1,
    Function.update values (store.target op) (store.step op (values (store.target op))).2)

-- One operation after another, with the replies in order.
def serve : List Op → (κ → V) → List R × (κ → V)
  | [], values => ([], values)
  | op :: rest, values =>
      ((store.apply op values).1 :: (serve rest (store.apply op values).2).1,
        (serve rest (store.apply op values).2).2)

-- The operations on a key.
def opsOn (key : κ) (ops : List Op) : List Op := ops.filter fun op => store.target op = key

-- The replies to the operations on a key.
def repliesOn (key : κ) : List Op → List R → List R
  | op :: ops, reply :: replies =>
      if store.target op = key then reply :: repliesOn key ops replies else repliesOn key ops replies
  | _, _ => []

end Serve

variable {store : Keyed κ V Op R}

@[simp] theorem serve_nil (values : κ → V) : store.serve [] values = ([], values) := rfl

theorem serve_cons (op : Op) (rest : List Op) (values : κ → V) : store.serve (op :: rest) values =
    ((store.apply op values).1 :: (store.serve rest (store.apply op values).2).1,
      (store.serve rest (store.apply op values).2).2) := rfl

@[simp] theorem length_serve (ops : List Op) (values : κ → V) : (store.serve ops values).1.length = ops.length := by
  induction ops generalizing values with
  | nil => rfl
  | cons op rest ih => simp [serve_cons, ih]

theorem serve_append (first second : List Op) (values : κ → V) : store.serve (first ++ second) values =
    ((store.serve first values).1 ++ (store.serve second (store.serve first values).2).1,
      (store.serve second (store.serve first values).2).2) := by
  induction first generalizing values with
  | nil => rfl
  | cons op rest ih => simp [serve_cons, ih]

theorem apply_same {op : Op} {key : κ} (h : store.target op = key) {values values' : κ → V}
    (hsame : values key = values' key) : (store.apply op values).1 = (store.apply op values').1 ∧
      (store.apply op values).2 key = (store.apply op values').2 key := by
  subst h
  simp [apply, hsame]

theorem apply_other {op : Op} {key : κ} (h : store.target op ≠ key) (values : κ → V) :
    (store.apply op values).2 key = values key := Function.update_of_ne (Ne.symm h) _ _

theorem opsOn_cons_same {op : Op} {key : κ} (h : store.target op = key) (rest : List Op) :
    store.opsOn key (op :: rest) = op :: store.opsOn key rest := by
  simp [opsOn, h]

theorem opsOn_cons_other {op : Op} {key : κ} (h : store.target op ≠ key) (rest : List Op) :
    store.opsOn key (op :: rest) = store.opsOn key rest := by
  simp [opsOn, h]

-- What happens to a key is what the operations on it do to its value.
theorem serve_opsOn (key : κ) (ops : List Op) (values values' : κ → V) (hsame : values key = values' key) :
    store.repliesOn key ops (store.serve ops values).1 = (store.serve (store.opsOn key ops) values').1 ∧
      (store.serve ops values).2 key = (store.serve (store.opsOn key ops) values').2 key := by
  induction ops generalizing values values' with
  | nil => exact ⟨rfl, hsame⟩
  | cons op rest ih =>
      rw [serve_cons, repliesOn]
      by_cases htarget : store.target op = key
      · obtain ⟨hreply, hvalue⟩ := apply_same htarget hsame
        obtain ⟨hreplies, hfinal⟩ := ih _ _ hvalue
        rw [if_pos htarget, opsOn_cons_same htarget, serve_cons, hreply, hreplies]
        exact ⟨rfl, hfinal⟩
      · have hkept : (store.apply op values).2 key = values' key := (apply_other htarget values).trans hsame
        rw [if_neg htarget, opsOn_cons_other htarget]
        exact ih _ _ hkept

end Keyed

end Library.KeyedStore
