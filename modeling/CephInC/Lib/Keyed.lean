/-
Keyed lists in strict key order: the contents of an ordered map, free of
how the map stores them.

The order is given by a three-way comparison `cmp : κ → κ → Int`, negative,
zero or positive, as C code writes it; `LinearCmp` says it is a strict
linear order whose zero is equality. `lookup key k l` is the element of
key `k`. The file says how lookup answers after an insertion, a removal
and a replacement at a position, and that a list in order is determined
by its lookups (`eq_of_lookup`, `keys_eq_of_lookup`): two trees of
different shape with equal lookups have equal contents.
-/
import Mathlib.Data.List.Basic

namespace CephInC.Lib

variable {α β κ : Type}

/-- A three-way comparison that orders linearly. -/
structure LinearCmp (cmp : κ → κ → Int) : Prop where
  eq_zero : ∀ {a b}, cmp a b = 0 ↔ a = b
  swap : ∀ {a b}, cmp a b < 0 ↔ 0 < cmp b a
  trans : ∀ {a b c}, cmp a b < 0 → cmp b c < 0 → cmp a c < 0

/-- In strictly increasing key order. -/
def InOrder (cmp : κ → κ → Int) (key : α → κ) (l : List α) : Prop :=
  l.Pairwise fun a b => cmp (key a) (key b) < 0

/-- The element of key `k`. -/
def lookup [DecidableEq κ] (key : α → κ) (k : κ) (l : List α) : Option α :=
  l.find? fun a => decide (key a = k)

theorem LinearCmp.irrefl {cmp : κ → κ → Int} (hc : LinearCmp cmp) (a : κ) :
    ¬cmp a a < 0 := by
  have h := hc.eq_zero.mpr (rfl : a = a)
  omega

theorem LinearCmp.ne {cmp : κ → κ → Int} (hc : LinearCmp cmp) {a b : κ}
    (h : cmp a b < 0) : a ≠ b := by
  rintro rfl
  exact hc.irrefl a h

section
variable {cmp : κ → κ → Int} {key : α → κ}

-- ==================================================== one position

/-- What order says at a position. -/
theorem InOrder.split {l l' : List α} {a : α}
    (h : InOrder cmp key (l ++ a :: l')) :
    InOrder cmp key (l ++ l')
      ∧ (∀ b ∈ l, cmp (key b) (key a) < 0)
      ∧ (∀ b ∈ l', cmp (key a) (key b) < 0) := by
  unfold InOrder at h ⊢
  rw [List.pairwise_append, List.pairwise_cons] at h
  obtain ⟨hl, ⟨ha, hl'⟩, hcross⟩ := h
  refine ⟨?_, ?_, ha⟩
  · rw [List.pairwise_append]
    exact ⟨hl, hl', fun b hb b' hb' =>
      hcross b hb b' (List.mem_cons_of_mem _ hb')⟩
  · intro b hb
    exact hcross b hb a (List.mem_cons_self ..)

/-- An element fits between the smaller and the larger ones. -/
theorem InOrder.insert {l l' : List α} {a : α}
    (h : InOrder cmp key (l ++ l'))
    (hl : ∀ b ∈ l, cmp (key b) (key a) < 0)
    (hl' : ∀ b ∈ l', cmp (key a) (key b) < 0) :
    InOrder cmp key (l ++ a :: l') := by
  unfold InOrder at h ⊢
  rw [List.pairwise_append] at h ⊢
  obtain ⟨h1, h2, h3⟩ := h
  refine ⟨h1, List.pairwise_cons.mpr ⟨hl', h2⟩, ?_⟩
  intro b hb b' hb'
  rcases List.mem_cons.mp hb' with rfl | hb'
  · exact hl b hb
  · exact h3 b hb b' hb'

/-- Other data under the same key keeps the order. -/
theorem InOrder.replace {l l' : List α} {a a' : α}
    (h : InOrder cmp key (l ++ a :: l')) (hk : key a' = key a) :
    InOrder cmp key (l ++ a' :: l') := by
  obtain ⟨h1, h2, h3⟩ := h.split
  refine h1.insert ?_ ?_
  · rw [hk]
    exact h2
  · rw [hk]
    exact h3

/-- Every key of an ordered list is above its head. -/
private theorem head_le {a : α} {l : List α} (h : InOrder cmp key (a :: l))
    {b : α} (hb : b ∈ a :: l) : b = a ∨ cmp (key a) (key b) < 0 := by
  rcases List.mem_cons.mp hb with rfl | hb
  · exact .inl rfl
  · exact .inr ((List.pairwise_cons.mp h).1 b hb)

end

section
variable [DecidableEq κ] {cmp : κ → κ → Int} {key : α → κ}

@[simp] theorem lookup_nil (k : κ) : lookup key k [] = none := rfl

theorem lookup_cons (k : κ) (a : α) (l : List α) :
    lookup key k (a :: l) = if key a = k then some a else lookup key k l := by
  unfold lookup
  rw [List.find?_cons]
  by_cases h : key a = k
  · simp [h]
  · simp [h]

theorem lookup_append (k : κ) (l l' : List α) :
    lookup key k (l ++ l') = (lookup key k l).or (lookup key k l') :=
  List.find?_append

theorem lookup_eq_none {k : κ} {l : List α} :
    lookup key k l = none ↔ ∀ a ∈ l, key a ≠ k := by
  simp [lookup, List.find?_eq_none]

theorem lookup_mem {k : κ} {l : List α} {a : α}
    (h : lookup key k l = some a) : a ∈ l ∧ key a = k := by
  refine ⟨List.mem_of_find?_eq_some h, ?_⟩
  have := List.find?_some h
  simpa using this

/-- Lookup of an element of another key skips it. -/
theorem lookup_skip {k : κ} {a : α} (l l' : List α) (h : key a ≠ k) :
    lookup key k (l ++ a :: l') = lookup key k (l ++ l') := by
  rw [lookup_append, lookup_append, lookup_cons, if_neg h]

-- ============================================ lookup at one position

/-- No other element of an ordered list has the key of a given one. -/
theorem InOrder.lookup_rest (hc : LinearCmp cmp) {l l' : List α} {a : α}
    (h : InOrder cmp key (l ++ a :: l')) :
    lookup key (key a) (l ++ l') = none := by
  obtain ⟨-, h2, h3⟩ := h.split
  rw [lookup_eq_none]
  intro b hb
  rcases List.mem_append.mp hb with hb | hb
  · exact hc.ne (h2 b hb)
  · exact (hc.ne (h3 b hb)).symm

/-- Lookup in an ordered list, read at one of its positions. -/
theorem InOrder.lookup_at (hc : LinearCmp cmp) {l l' : List α} {a : α}
    (h : InOrder cmp key (l ++ a :: l')) (k : κ) :
    lookup key k (l ++ a :: l')
      = if k = key a then some a else lookup key k (l ++ l') := by
  by_cases hk : k = key a
  · have hl : lookup key (key a) l = none := by
      have hrest := h.lookup_rest hc
      rw [lookup_append, Option.or_eq_none_iff] at hrest
      exact hrest.1
    rw [if_pos hk, hk, lookup_append, hl, lookup_cons, if_pos rfl]
    rfl
  · rw [if_neg hk, lookup_skip l l' (Ne.symm hk)]

/-- Lookup after removing the element at a position. -/
theorem InOrder.lookup_erase (hc : LinearCmp cmp) {l l' : List α} {a : α}
    (h : InOrder cmp key (l ++ a :: l')) (k : κ) :
    lookup key k (l ++ l')
      = if k = key a then none else lookup key k (l ++ a :: l') := by
  by_cases hk : k = key a
  · rw [if_pos hk, hk, h.lookup_rest hc]
  · rw [if_neg hk, h.lookup_at hc k, if_neg hk]

/-- Lookup after replacing the element at a position. -/
theorem InOrder.lookup_replace (hc : LinearCmp cmp) {l l' : List α}
    {a a' : α} (h : InOrder cmp key (l ++ a :: l')) (hk : key a' = key a)
    (k : κ) :
    lookup key k (l ++ a' :: l')
      = if k = key a then some a' else lookup key k (l ++ a :: l') := by
  rw [(h.replace hk).lookup_at hc k, hk, h.lookup_at hc k]
  by_cases h' : k = key a
  · rw [if_pos h', if_pos h']
  · rw [if_neg h', if_neg h', if_neg h']

-- ===================================== lists are known by their lookups

/-- A member of an ordered list is what its key looks up. -/
theorem InOrder.lookup_of_mem (hc : LinearCmp cmp) {l : List α} {a : α}
    (h : InOrder cmp key l) (ha : a ∈ l) : lookup key (key a) l = some a := by
  obtain ⟨l₁, l₂, rfl⟩ := List.append_of_mem ha
  rw [h.lookup_at hc, if_pos rfl]

/-- The keys of an ordered list are determined by which keys it holds. -/
theorem keys_eq_of_lookup (hc : LinearCmp cmp) {key' : β → κ} :
    ∀ {l : List α} {l' : List β}, InOrder cmp key l → InOrder cmp key' l' →
      (∀ k, (lookup key k l).isSome = (lookup key' k l').isSome) →
      l.map key = l'.map key'
  | [], [], _, _, _ => rfl
  | [], b :: l', _, _, h => by
      have := h (key' b)
      rw [lookup_cons, if_pos rfl] at this
      cases this
  | a :: l, [], _, _, h => by
      have := h (key a)
      rw [lookup_cons, if_pos rfl] at this
      cases this
  | a :: l, b :: l', hl, hl', h => by
      have ha : (lookup key' (key a) (b :: l')).isSome := by
        rw [← h, lookup_cons, if_pos rfl]
        rfl
      have hb : (lookup key (key' b) (a :: l)).isSome := by
        rw [h, lookup_cons, if_pos rfl]
        rfl
      obtain ⟨b', hb'⟩ := Option.isSome_iff_exists.mp ha
      obtain ⟨a', ha'⟩ := Option.isSome_iff_exists.mp hb
      obtain ⟨hmb, hkb⟩ := lookup_mem hb'
      obtain ⟨hma, hka⟩ := lookup_mem ha'
      -- each head is no larger than the other, so the heads agree
      have hhead : key a = key' b := by
        rcases head_le hl' hmb with rfl | h1
        · exact hkb.symm
        · rcases head_le hl hma with rfl | h2
          · exact hka
          · rw [hkb] at h1
            rw [hka] at h2
            exact absurd (hc.trans h1 h2) (hc.irrefl _)
      have hla := (List.pairwise_cons.mp hl)
      have hlb := (List.pairwise_cons.mp hl')
      rw [List.map_cons, List.map_cons, hhead]
      congr 1
      refine keys_eq_of_lookup hc hla.2 hlb.2 fun k => ?_
      by_cases hk : k = key' b
      · have h1 : lookup key k l = none := lookup_eq_none.mpr fun c hc' => by
          rw [hk, ← hhead]
          exact (hc.ne (hla.1 c hc')).symm
        have h2 : lookup key' k l' = none := lookup_eq_none.mpr fun c hc' => by
          rw [hk]
          exact (hc.ne (hlb.1 c hc')).symm
        rw [h1, h2]
        rfl
      · have := h k
        rw [lookup_cons, lookup_cons, hhead, if_neg (Ne.symm hk),
          if_neg (Ne.symm hk)] at this
        exact this

/-- An ordered list is determined by its lookups. -/
theorem eq_of_lookup (hc : LinearCmp cmp) {l l' : List α}
    (hl : InOrder cmp key l) (hl' : InOrder cmp key l')
    (h : ∀ k, lookup key k l = lookup key k l') : l = l' := by
  have hkeys := keys_eq_of_lookup hc hl hl' fun k => by rw [h k]
  have hlen : l.length = l'.length := by
    simpa using congrArg List.length hkeys
  refine List.ext_getElem hlen fun i hi hi' => ?_
  have hki : key l[i] = key l'[i] := by
    have := List.getElem_of_eq hkeys (by simpa using hi)
    simpa using this
  have h1 := hl.lookup_of_mem hc (List.getElem_mem hi)
  have h2 := hl'.lookup_of_mem hc (List.getElem_mem hi')
  rw [← hki, ← h, h1] at h2
  exact Option.some.inj h2

end

end CephInC.Lib
