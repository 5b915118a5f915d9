import Mathlib.Data.List.Basic
import Mathlib.Tactic.Common

/-!
# Threads of atomic operations

Threads over a shared state.  A thread is its local data and the operations it has left.  It
executes the first of them, which may change the shared state and the local data, put other
operations in front of the rest or in place of it, leave the rest but for what an exception still
runs (`ControlFlow`), and launch threads; `exec` says what each operation does, and its argument
`ε` carries what the environment decides.  Which thread moves is up to the scheduler, so
`Pool.step` takes its index.

`Pool.forall_step` is the rule for facts about every thread.  `Ahead a g` says of a thread's code
that it comes to an operation of `a` before any of `g`: what holds whenever the code is past its
guard is stated with it, and `ahead_tail` says how it changes when an operation is executed.
`AtMostOne` is mutual exclusion.
-/

/-- What an operation does to the rest of its thread. -/
inductive ControlFlow (ι : Type*)
  -- put `code` in front of it
  | go (code : List ι)
  -- replace it by `code`
  | exit (code : List ι)
  -- leave out all of it but the operations of `keep`
  | unwind (keep : ι → Bool)

structure Thread (ℓ ι : Type*) where
  locals : ℓ
  code : List ι
  deriving DecidableEq

/-- What an operation does. -/
structure Effect (σ ℓ ι : Type*) where
  state : σ
  locals : ℓ
  flow : ControlFlow ι := .go []
  launched : List (Thread ℓ ι) := []

structure Pool (σ ℓ ι : Type*) where
  state : σ
  threads : List (Thread ℓ ι) := []

variable {σ ℓ ι ε α : Type*}

namespace ControlFlow

/-- The thread's code after an operation with `rest` behind it. -/
def apply (rest : List ι) : ControlFlow ι → List ι
  | .go code => code ++ rest
  | .exit code => code
  | .unwind keep => rest.filter keep

@[simp] theorem apply_go (rest code : List ι) : apply rest (.go code) = code ++ rest := rfl

@[simp] theorem apply_exit (rest code : List ι) : apply rest (.exit code) = code := rfl

@[simp] theorem apply_unwind (rest : List ι) (keep : ι → Bool) :
    apply rest (.unwind keep) = rest.filter keep := rfl

end ControlFlow

/-! ### Code -/

/-- The code comes to an operation of `a` before any of `g`. -/
def Ahead (a g : ι → Bool) : List ι → Bool
  | [] => false
  | op :: rest => a op || (!g op && Ahead a g rest)

section Ahead

variable {a g : ι → Bool} {op : ι} {xs ys rest : List ι}

@[simp] theorem ahead_nil : Ahead a g [] = false := rfl

theorem ahead_cons : Ahead a g (op :: rest) = (a op || (!g op && Ahead a g rest)) := rfl

/-- What is ahead after an operation was ahead before it, unless the operation is a guard. -/
theorem ahead_tail (h : Ahead a g rest = true) (hg : g op = false) :
    Ahead a g (op :: rest) = true := by
  simp [ahead_cons, h, hg]

theorem ahead_append (h : Ahead a g (xs ++ ys) = true) :
    Ahead a g xs = true ∨ Ahead a g ys = true := by
  induction xs with
  | nil => exact .inr h
  | cons op xs ih =>
    simp only [List.cons_append, ahead_cons, Bool.or_eq_true, Bool.and_eq_true] at h ⊢
    rcases h with hop | ⟨hg, hrest⟩
    · exact .inl (.inl hop)
    · exact (ih hrest).imp_left fun h => .inr ⟨hg, h⟩

theorem any_of_ahead (h : Ahead a g xs = true) : xs.any a = true := by
  induction xs with
  | nil => exact h
  | cons op xs ih =>
    simp only [ahead_cons, List.any_cons, Bool.or_eq_true, Bool.and_eq_true] at h ⊢
    exact h.imp_right fun h => ih h.2

end Ahead

/-! ### Replacing and adding an element -/

theorem getElem?_set_cases {l : List α} {i j : ℕ} {a b : α} (h : (l.set i a)[j]? = some b) :
    j = i ∧ b = a ∨ j ≠ i ∧ l[j]? = some b := by
  rcases eq_or_ne j i with rfl | hne
  · have hlt : j < (l.set j a).length := (List.getElem?_eq_some_iff.mp h).1
    rw [List.getElem?_set_self (by simpa using hlt), Option.some.injEq] at h
    exact .inl ⟨rfl, h.symm⟩
  · rw [List.getElem?_set_ne hne.symm] at h
    exact .inr ⟨hne, h⟩

theorem getElem?_concat_cases {l : List α} {i : ℕ} {a b : α} (h : (l ++ [a])[i]? = some b) :
    i = l.length ∧ b = a ∨ l[i]? = some b := by
  rcases Nat.lt_or_ge i l.length with hlt | hge
  · rw [List.getElem?_append_left hlt] at h
    exact .inr h
  · rw [List.getElem?_append_right hge, List.getElem?_singleton] at h
    split_ifs at h with hzero
    cases h
    exact .inl ⟨by omega, rfl⟩

theorem getElem?_concat_of_some {l : List α} {i : ℕ} {b : α} (h : l[i]? = some b) (a : α) :
    (l ++ [a])[i]? = some b := by
  rw [List.getElem?_append_left (List.getElem?_eq_some_iff.mp h).1, h]

/-! ### Mutual exclusion -/

theorem eq_or_mem_eraseIdx_of_mem_set {l : List α} {i : ℕ} {a b : α} (h : a ∈ l.set i b) :
    a = b ∨ a ∈ l.eraseIdx i := by
  obtain ⟨k, hk⟩ := List.mem_iff_getElem?.mp h
  rcases eq_or_ne i k with rfl | hne
  · have hlt : i < (l.set i b).length := (List.getElem?_eq_some_iff.mp hk).1
    rw [List.getElem?_set_self (by simpa using hlt), Option.some.injEq] at hk
    exact .inl hk.symm
  · rw [List.getElem?_set_ne hne] at hk
    exact .inr (List.mem_eraseIdx_iff_getElem?.mpr ⟨k, hne.symm, hk⟩)

/-- The list with what the `i`th element has become, or without it. -/
def place (l : List α) (i : ℕ) : Option α → List α
  | some a => l.set i a
  | none => l.eraseIdx i

theorem mem_of_mem_place {l : List α} {i : ℕ} {r : Option α} {a : α} (h : a ∈ place l i r) :
    r = some a ∨ a ∈ l.eraseIdx i := by
  cases r with
  | some b => exact (eq_or_mem_eraseIdx_of_mem_set h).imp_left fun heq => congrArg some heq.symm
  | none => exact .inr h

/-- A map does not see a change between elements with the same image. -/
theorem map_set_of_eq {β : Type*} {f : α → β} {l : List α} {i : ℕ} {a b : α}
    (h : l[i]? = some a) (hf : f b = f a) : (l.set i b).map f = l.map f := by
  obtain ⟨hlt, rfl⟩ := List.getElem?_eq_some_iff.mp h
  have hlt' : i < (l.map f).length := by rwa [List.length_map]
  rw [List.map_set, hf, ← List.getElem_map f (h := hlt')]
  exact List.set_getElem_self hlt'

theorem eq_singleton_of_getElem? {l : List α} {i : ℕ} {a : α} (hlen : l.length ≤ 1)
    (h : l[i]? = some a) : l = [a] ∧ i = 0 := by
  match l, i, hlen, h with
  | [_], 0, _, h => exact ⟨congrArg (fun b => [b]) (Option.some.inj h), rfl⟩

/-- No two places of the list meet `C`. -/
def AtMostOne (C : α → Prop) (l : List α) : Prop :=
  ∀ (i j : ℕ) (a b : α), l[i]? = some a → l[j]? = some b → C a → C b → i = j

namespace AtMostOne

variable {C : α → Prop} {l new : List α} {i : ℕ} {a : α}

theorem of_forall_not (h : ∀ a ∈ l, ¬ C a) : AtMostOne C l :=
  fun _ _ a _ ha _ hCa _ => absurd hCa (h a (List.mem_of_getElem? ha))

theorem append_of_not (h : AtMostOne C l) (hnew : ∀ a ∈ new, ¬ C a) : AtMostOne C (l ++ new) := by
  have hleft : ∀ {k : ℕ} {b : α}, (l ++ new)[k]? = some b → C b → l[k]? = some b := by
    intro k b hb hC
    rcases Nat.lt_or_ge k l.length with hk | hk
    · rwa [List.getElem?_append_left hk] at hb
    · rw [List.getElem?_append_right hk] at hb
      exact absurd hC (hnew b (List.mem_of_getElem? hb))
  intro j k b c hb hc hCb hCc
  exact h j k b c (hleft hb hCb) (hleft hc hCc) hCb hCc

/-- Replacing an element by one that meets `C` only if it did. -/
theorem set_of_imp {b : α} (h : AtMostOne C l) (hb : l[i]? = some b) (himp : C a → C b) :
    AtMostOne C (l.set i a) := by
  have hback : ∀ {k : ℕ} {c : α}, (l.set i a)[k]? = some c → C c → ∃ d, l[k]? = some d ∧ C d := by
    intro k c hc hC
    rcases eq_or_ne i k with rfl | hne
    · rw [List.getElem?_set_self (List.getElem?_eq_some_iff.mp hb).1, Option.some.injEq] at hc
      exact ⟨b, hb, himp (hc ▸ hC)⟩
    · rw [List.getElem?_set_ne hne] at hc
      exact ⟨c, hc, hC⟩
  intro j k c d hc hd hCc hCd
  obtain ⟨c', hc', hCc'⟩ := hback hc hCc
  obtain ⟨d', hd', hCd'⟩ := hback hd hCd
  exact h j k c' d' hc' hd' hCc' hCd'

/-- Where one element meets `C` the others do not. -/
theorem not_others (h : AtMostOne C l) (hi : l[i]? = some a) (ha : C a) :
    ∀ b ∈ l.eraseIdx i, ¬ C b := by
  intro b hb hCb
  obtain ⟨k, hne, hk⟩ := List.mem_eraseIdx_iff_getElem?.mp hb
  exact hne (h k i b a hk hi hCb ha)

/-- Replacing an element where no other meets `C`. -/
theorem set_of_others (h : ∀ b ∈ l.eraseIdx i, ¬ C b) : AtMostOne C (l.set i a) := by
  have hplace : ∀ {k : ℕ} {c : α}, (l.set i a)[k]? = some c → C c → k = i := by
    intro k c hc hC
    by_contra hne
    rw [List.getElem?_set_ne (Ne.symm hne)] at hc
    exact h c (List.mem_eraseIdx_iff_getElem?.mpr ⟨k, hne, hc⟩) hC
  intro j k c d hc hd hCc hCd
  rw [hplace hc hCc, hplace hd hCd]

theorem countP_le_one {p : α → Bool} (h : AtMostOne (fun a => p a = true) l) :
    l.countP p ≤ 1 := by
  induction l with
  | nil => exact Nat.zero_le _
  | cons a l ih =>
    have hrest : AtMostOne (fun a => p a = true) l := fun i j b c hi hj hb hc =>
      Nat.succ.inj (h (i + 1) (j + 1) b c hi hj hb hc)
    by_cases ha : p a = true
    · have hnone : l.countP p = 0 := by
        refine List.countP_eq_zero.mpr fun b hb hpb => ?_
        obtain ⟨k, hk⟩ := List.mem_iff_getElem?.mp hb
        exact absurd (h 0 (k + 1) a b rfl hk ha hpb) (Nat.succ_ne_zero k).symm
      have hone : (a :: l).countP p = 1 := by rw [List.countP_cons_of_pos ha, hnone]
      exact Nat.le_of_eq hone
    · rw [List.countP_cons_of_neg ha]
      exact ih hrest

end AtMostOne

/-! ### The pool -/

namespace Pool

/-- The operation that thread `i` is at. -/
def next (p : Pool σ ℓ ι) (i : ℕ) : Option ι := (p.threads[i]?).bind fun t => t.code.head?

/-- The other threads. -/
def others (p : Pool σ ℓ ι) (i : ℕ) : List (Thread ℓ ι) := p.threads.eraseIdx i

/-- Thread `i` executes its first operation. -/
def step (exec : ε → σ → ℓ → ι → Option (Effect σ ℓ ι)) (p : Pool σ ℓ ι) (i : ℕ) (c : ε) :
    Option (Pool σ ℓ ι) :=
  match p.threads[i]? with
  | some ⟨locals, op :: rest⟩ =>
    (exec c p.state locals op).map fun r =>
      { state := r.state, threads := p.threads.set i ⟨r.locals, r.flow.apply rest⟩ ++ r.launched }
  | _ => none

variable {exec : ε → σ → ℓ → ι → Option (Effect σ ℓ ι)} {p p' : Pool σ ℓ ι} {i : ℕ} {c : ε}

theorem step_eq_some : p.step exec i c = some p' ↔ ∃ locals op rest r,
    p.threads[i]? = some ⟨locals, op :: rest⟩ ∧ exec c p.state locals op = some r ∧
      p' = { state := r.state,
             threads := p.threads.set i ⟨r.locals, r.flow.apply rest⟩ ++ r.launched } := by
  unfold step
  constructor
  · intro h
    split at h
    · next locals op rest hi =>
      obtain ⟨r, hr, rfl⟩ := Option.map_eq_some_iff.mp h
      exact ⟨locals, op, rest, r, hi, hr, rfl⟩
    · exact nomatch h
  · rintro ⟨locals, op, rest, r, hi, hr, rfl⟩
    simp only [hi, hr, Option.map_some]

theorem mem_of_mem_others {t : Thread ℓ ι} (h : t ∈ p.others i) : t ∈ p.threads :=
  List.mem_of_mem_eraseIdx h

theorem mem_set {t u : Thread ℓ ι} (h : t ∈ p.threads.set i u) : t = u ∨ t ∈ p.others i :=
  eq_or_mem_eraseIdx_of_mem_set h

/-- **What every thread meets is kept** by a step whose operation keeps it for the other threads,
its own thread and those it launches. -/
theorem forall_step {J : σ → Thread ℓ ι → Prop} (h : p.step exec i c = some p')
    (hop : ∀ locals op rest r, p.threads[i]? = some ⟨locals, op :: rest⟩ →
      exec c p.state locals op = some r →
      (∀ t ∈ p.others i, J r.state t) ∧ J r.state ⟨r.locals, r.flow.apply rest⟩ ∧
        ∀ t ∈ r.launched, J r.state t) :
    ∀ t ∈ p'.threads, J p'.state t := by
  obtain ⟨locals, op, rest, r, hi, hr, rfl⟩ := step_eq_some.mp h
  obtain ⟨hothers, hown, hlaunched⟩ := hop locals op rest r hi hr
  intro t ht
  rcases List.mem_append.mp ht with hset | hnew
  · rcases mem_set hset with rfl | hother
    · exact hown
    · exact hothers t hother
  · exact hlaunched t hnew

end Pool
