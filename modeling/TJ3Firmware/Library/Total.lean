import Mathlib.Data.List.Basic

namespace Library.Total

variable {β κ ν : Type} (op : β → β → β) (unit : β)

-- All values combined.
def total (values : List β) : β := values.foldr op unit

@[simp] theorem total_nil : total op unit [] = unit := rfl

@[simp] theorem total_cons (value : β) (rest : List β) : total op unit (value :: rest) = op value (total op unit rest) := rfl

variable [Std.Associative op] [Std.LawfulIdentity op unit]

theorem total_append (first second : List β) :
    total op unit (first ++ second) = op (total op unit first) (total op unit second) := by
  induction first with
  | nil => exact (Std.LawfulLeftIdentity.left_id _).symm
  | cons value rest ih =>
      rw [List.cons_append, total_cons, total_cons, ih]
      exact (Std.Associative.assoc _ _ _).symm

-- Keys that are not in the table have a default. What the defaults add to the
-- total is the total of the defaults of the missing keys.
theorem total_lookup [Std.Commutative op] [BEq κ] (pieces : ν → List β) (zero : ν)
    (hzero : total op unit (pieces zero) = unit) (table : List (κ × ν)) (default : κ → ν) (keys : List κ) :
    total op unit (keys.flatMap fun key => pieces ((table.lookup key).getD (default key))) =
      op (total op unit (keys.flatMap fun key => pieces ((table.lookup key).getD zero)))
        (total op unit ((keys.filter fun key => (table.lookup key).isNone).flatMap fun key => pieces (default key))) := by
  have hunit : ∀ value, op unit value = value := Std.LawfulLeftIdentity.left_id
  induction keys with
  | nil => exact (hunit unit).symm
  | cons key rest ih =>
      rw [List.flatMap_cons, List.flatMap_cons, total_append, total_append, ih]
      cases hlookup : table.lookup key with
      | some value =>
          rw [List.filter_cons_of_neg (by simp [hlookup]), Option.getD_some, Option.getD_some]
          exact (Std.Associative.assoc _ _ _).symm
      | none =>
          rw [List.filter_cons_of_pos (by simp [hlookup]), List.flatMap_cons, total_append, Option.getD_none,
            Option.getD_none, hzero, hunit]
          ac_rfl

end Library.Total
