/-
A list kept as blocks of one length, but for the last: where a position
of the whole is found in the blocks.
-/
import Mathlib.Data.List.Basic

namespace CephInC.Lib

variable {α : Type}

theorem length_flatten_blocks {c : Nat} {ls : List (List α)} (h : ∀ b ∈ ls, b.length = c) :
    ls.flatten.length = c * ls.length := by
  induction ls with
  | nil => rfl
  | cons b rest ih =>
      rw [List.flatten_cons, List.length_append, h b List.mem_cons_self,
        ih fun b' hb' => h b' (List.mem_cons_of_mem _ hb'), List.length_cons, Nat.mul_succ,
        Nat.add_comm]

/-- What is behind the place `o` of block `i`, when the blocks before it
have `c` elements each. -/
theorem flatten_drop_block {c : Nat} : ∀ {ls : List (List α)} {i : Nat} {block : List α},
    ls[i]? = some block → (∀ b ∈ ls.take i, b.length = c) → ∀ {o : Nat}, o ≤ block.length →
    ls.flatten.drop (c * i + o) = block.drop o ++ (ls.drop (i + 1)).flatten
  | [], _, _, h, _, _, _ => by cases h
  | b :: rest, 0, block, h, _, o, ho => by
      cases h
      rw [List.flatten_cons, Nat.mul_zero, Nat.zero_add, List.drop_append_of_le_length ho]
      rfl
  | b :: rest, i + 1, block, h, hfull, o, ho => by
      have hb : b.length = c := hfull b List.mem_cons_self
      have hrest : rest[i]? = some block := h
      have ih := flatten_drop_block hrest
        (fun b' hb' => hfull b' (List.mem_cons_of_mem _ hb')) ho
      rw [List.flatten_cons, show c * (i + 1) + o = b.length + (c * i + o) by
        rw [hb, Nat.mul_succ]; omega, List.drop_append, Nat.add_sub_cancel_left,
        List.drop_eq_nil_of_le (Nat.le_add_right _ _), List.nil_append, ih]
      rfl

end CephInC.Lib
