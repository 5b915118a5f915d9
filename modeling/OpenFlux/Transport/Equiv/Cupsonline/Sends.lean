import Mathlib.Algebra.BigOperators.Group.Finset.Piecewise
import Mathlib.Algebra.BigOperators.Fin
import Mathlib.Data.Set.Card
import OpenFlux.Algorithm.Threads
import OpenFlux.Transport.Cupsonline.Sends

/-!
# One room for a flow, whoever sends first

However many callers are inside `Send`, the table has one sender for a key, made by the first caller
that finds none under the write lock, and every caller that is past the table holds that one
(`CallerOk`).  So each packet is put on the queue of the room of its key's hash, and the packets of
one caller in the order in which it sends them (`Kept`).

`advance_spec` says once what a step does; the invariants follow from it one by one: who holds the
lock (`Excl`), the table (`Table`), the counters, the queues.
-/

namespace OpenFlux.Transport.Cupsonline.Sends

open EventSystem

variable {n : ℕ} {cfg : Config} {packets : List (List Bytes)} {s t : Sends n} {pc pc' : SendPc}
  {i : ℕ} {ctx : Bool}

/-! ### What is to be shown -/

/-- The caller holds `flowMu` for writing. -/
def Holding : SendPc → Bool
  | .recheck _ | .insert _ | .count _ _ | .unlock _ _ => true
  | _ => false

/-- The caller has put a sender into the table and not counted it yet. -/
def Counting : SendPc → Bool
  | .count _ _ => true
  | _ => false

/-- The packets put on the queue of the room `r`, each with its caller. -/
def putOn (s : Sends n) (r : Fin n) : List (ℕ × Bytes) :=
  (s.puts.filter fun p => p.1 = r).map Prod.snd

/-- The packets that the caller `i` has put on queues. -/
def putBy (s : Sends n) (i : ℕ) : List Bytes :=
  (s.puts.filter fun p => p.2.1 = i).map fun p => p.2.2

/-- The keys that the table has a sender for. -/
def keys (s : Sends n) : Set FlowKey := {key | s.flows key ≠ none}

/-- The number of the room of a key. -/
def roomOf (n : ℕ) (key : FlowKey) : ℕ := (flowHash key).toNat % n

/-- What holds of the transport however its callers are interleaved. -/
structure Kept (packets : List (List Bytes)) (s : Sends n) : Prop where
  -- a packet is put on the queue of its key's room, and stays there until the room takes it
  room : ∀ r caller data, (r, caller, data) ∈ s.puts → r.val = roomOf n (extractFlowKey data)
  queue : ∀ r, s.queues r <:+ putOn s r
  -- a key has one sender, of that room; no sender was created for nothing or serves two keys
  sender : ∀ key fs, s.flows key = some fs →
    ∃ sender, s.senders[fs]? = some sender ∧ sender.chIdx.val = roomOf n key
  created : ∀ fs < s.senders.length, ∃ key, s.flows key = some fs
  distinct : ∀ key key' fs, s.flows key = some fs → s.flows key' = some fs → key = key'
  -- the keys of the table are those of packets that are sent, with those of all that are on queues
  known : ∀ key ∈ keys s, ∃ ps ∈ packets, ∃ data ∈ ps, extractFlowKey data = key
  seen : ∀ r caller data, (r, caller, data) ∈ s.puts → extractFlowKey data ∈ keys s
  -- the counters lag behind the table by the caller that is about to count
  counted : ((∑ r, s.roomFlows r) + s.callers.countP (fun c => Counting c.pc) : ℕ) =
    (keys s).encard
  counting : s.callers.countP (fun c => Counting c.pc) ≤ 1
  -- the packets of one caller are on a queue in the order in which it sends them
  order : ∀ i ps r, packets[i]? = some ps →
    (((putOn s r).filter fun p => p.1 = i).map Prod.snd).Sublist ps
  -- where a call has returned nil, its packet is the last one that the caller has put on a queue
  returned : ∀ i ps c, packets[i]? = some ps → s.callers[i]? = some c → c.pc = .returned (.ok ()) →
    ∃ done data, ps = done ++ data :: c.rest ∧ (putBy s i).getLast? = some data

/-! ### What a step does -/

/-- What a caller knows of the table. -/
def CallerOk (s : Sends n) : SendPc → Prop
  | .insert data => s.flows (extractFlowKey data) = none
  | .rUnlock data (some fs) | .count data fs | .unlock data fs | .seqAdd data fs | .put data fs =>
    s.flows (extractFlowKey data) = some fs
  | _ => True

/-- The packet of the call that the caller is in. -/
def packet : SendPc → List Bytes
  | .idle | .returned _ => []
  | .rooms data | .rLock data | .lookup data | .rUnlock data _ | .lock data | .recheck data
  | .insert data | .count data _ | .unlock data _ | .seqAdd data _ | .put data _ => [data]

/-- The packets that a caller may still put on queues. -/
def pending (c : Caller) : List Bytes := packet c.pc ++ c.rest

/-- The table and the rooms of its senders are as before. -/
structure SameTable (s t : Sends n) : Prop where
  flows : t.flows = s.flows
  rooms : t.senders.map FlowSender.chIdx = s.senders.map FlowSender.chIdx

/-- The step puts a new sender into the table. -/
def Inserts (s t : Sends n) (pc : SendPc) : Prop :=
  ∃ (data : Bytes) (idx : Fin n), pc = .insert data ∧
    idx.val = roomOf n (extractFlowKey data) ∧
    t.flows = Function.update s.flows (extractFlowKey data) (some s.senders.length) ∧
    t.senders = s.senders ++ [{ chIdx := idx }]

/-- The step puts a packet of the caller `i` on a queue. -/
def Puts (s t : Sends n) (i : ℕ) (pc : SendPc) : Prop :=
  ∃ data fs sender, pc = .put data fs ∧ s.senders[fs]? = some sender ∧
    t.queues = Function.update s.queues sender.chIdx (s.queues sender.chIdx ++ [(i, data)]) ∧
    t.puts = s.puts ++ [(sender.chIdx, i, data)]

/-- What a step of the caller `c`, which is `c'` after it, does to each part of the state. -/
structure Exec (s t : Sends n) (i : ℕ) (c c' : Caller) : Prop where
  lock : (Holding c'.pc = Holding c.pc ∧ t.writing = s.writing) ∨
    (s.writing = false ∧ t.writing = true) ∨ (Holding c.pc = true ∧ Holding c'.pc = false)
  table : SameTable s t ∨ Inserts s t c.pc
  own : CallerOk s c.pc → CallerOk t c'.pc
  counters : (∑ r, t.roomFlows r) + (Counting c'.pc).toNat + s.senders.length =
    (∑ r, s.roomFlows r) + (Counting c.pc).toNat + t.senders.length
  puts : (t.queues = s.queues ∧ t.puts = s.puts ∧ c'.pc ≠ .returned (.ok ()) ∧
      (pending c' = pending c ∨ (packet c'.pc = [] ∧ c'.rest = c.rest))) ∨
    (Puts s t i c.pc ∧ packet c'.pc = [] ∧ c'.rest = c.rest)

/-- A step that moves the caller and the lock. -/
theorem Exec.quiet {c c' : Caller} (readers : ℕ) (writing : Bool)
    (hlock : (Holding c'.pc = Holding c.pc ∧ writing = s.writing) ∨
      (s.writing = false ∧ writing = true) ∨ (Holding c.pc = true ∧ Holding c'.pc = false))
    (hown : CallerOk s c.pc → CallerOk s c'.pc) (hcounting : Counting c'.pc = Counting c.pc)
    (hreturned : c'.pc ≠ .returned (.ok ()))
    (hpending : pending c' = pending c ∨ (packet c'.pc = [] ∧ c'.rest = c.rest)) :
    Exec s { s with readers, writing } i c c' where
  lock := hlock
  table := .inl ⟨rfl, rfl⟩
  own := hown
  counters := by rw [hcounting]
  puts := .inl ⟨rfl, rfl, hreturned, hpending⟩

theorem exec_spec (h : s.exec cfg i ctx pc = some (t, pc')) (rest : List Bytes) :
    Exec s t i ⟨pc, rest⟩ ⟨pc', rest⟩ := by
  cases pc with
  | idle => exact nomatch h
  | returned result => exact nomatch h
  | rooms data =>
    obtain ⟨rfl, rfl⟩ := Prod.mk.inj (Option.some.inj h)
    refine .quiet _ _ (.inl ⟨?_, rfl⟩) (fun _ => ?_) ?_ ?_ ?_
    all_goals split_ifs
    all_goals
      first | rfl | trivial | exact .inr ⟨rfl, rfl⟩ | exact .inl rfl | (intro heq; cases heq)
  | rLock data =>
    simp only [exec] at h
    split_ifs at h
    obtain ⟨rfl, rfl⟩ := Prod.mk.inj (Option.some.inj h)
    exact .quiet _ _ (.inl ⟨rfl, rfl⟩) (fun _ => trivial) rfl nofun (.inl rfl)
  | lookup data =>
    obtain ⟨rfl, rfl⟩ := Prod.mk.inj (Option.some.inj h)
    refine .quiet _ _ (.inl ⟨rfl, rfl⟩) (fun _ => ?_) rfl nofun (.inl rfl)
    cases hfs : s.flows (extractFlowKey data) with
    | none => trivial
    | some fs => exact hfs
  | rUnlock data fs =>
    obtain ⟨rfl, rfl⟩ := Prod.mk.inj (Option.some.inj h)
    cases fs with
    | none => exact .quiet _ _ (.inl ⟨rfl, rfl⟩) (fun _ => trivial) rfl nofun (.inl rfl)
    | some fs => exact .quiet _ _ (.inl ⟨rfl, rfl⟩) id rfl nofun (.inl rfl)
  | lock data =>
    simp only [exec] at h
    split_ifs at h with hfree
    obtain ⟨rfl, rfl⟩ := Prod.mk.inj (Option.some.inj h)
    have hwriting : s.writing = false := Bool.eq_false_iff.mpr (not_or.mp hfree).1
    exact .quiet _ _ (.inr (.inl ⟨hwriting, rfl⟩)) (fun _ => trivial) rfl nofun (.inl rfl)
  | recheck data =>
    obtain ⟨rfl, rfl⟩ := Prod.mk.inj (Option.some.inj h)
    cases hfs : s.flows (extractFlowKey data) with
    | none => exact .quiet _ _ (.inl ⟨rfl, rfl⟩) (fun _ => hfs) rfl nofun (.inl rfl)
    | some fs => exact .quiet _ _ (.inl ⟨rfl, rfl⟩) (fun _ => hfs) rfl nofun (.inl rfl)
  | insert data =>
    simp only [exec] at h
    split_ifs at h with hn
    obtain ⟨rfl, rfl⟩ := Prod.mk.inj (Option.some.inj h)
    refine ⟨.inl ⟨rfl, rfl⟩, .inr ⟨data, _, rfl, rfl, rfl, rfl⟩, fun _ => ?_, ?_,
      .inl ⟨rfl, rfl, nofun, .inl rfl⟩⟩
    · exact Function.update_self ..
    · simp only [Counting, Bool.toNat_true, Bool.toNat_false, List.length_append,
        List.length_singleton]
      omega
  | count data fs =>
    obtain ⟨sender, -, heq⟩ := Option.map_eq_some_iff.mp h
    obtain ⟨rfl, rfl⟩ := Prod.mk.inj heq
    refine ⟨.inl ⟨rfl, rfl⟩, .inl ⟨rfl, rfl⟩, id, ?_, .inl ⟨rfl, rfl, nofun, .inl rfl⟩⟩
    have hsum := Finset.sum_update_of_mem (Finset.mem_univ sender.chIdx) s.roomFlows
      (s.roomFlows sender.chIdx + 1)
    have hsplit := Finset.add_sum_erase Finset.univ s.roomFlows (Finset.mem_univ sender.chIdx)
    rw [← Finset.sdiff_singleton_eq_erase] at hsplit
    simp only [Counting, Bool.toNat_true, Bool.toNat_false]
    omega
  | unlock data fs =>
    obtain ⟨rfl, rfl⟩ := Prod.mk.inj (Option.some.inj h)
    exact .quiet _ _ (.inr (.inr ⟨rfl, rfl⟩)) id rfl nofun (.inl rfl)
  | seqAdd data fs =>
    obtain ⟨sender, hsender, heq⟩ := Option.map_eq_some_iff.mp h
    obtain ⟨rfl, rfl⟩ := Prod.mk.inj heq
    refine ⟨.inl ⟨rfl, rfl⟩, .inl ⟨rfl, ?_⟩, id, ?_, .inl ⟨rfl, rfl, nofun, .inl rfl⟩⟩
    · exact map_set_of_eq hsender rfl
    · simp only [Counting, List.length_set]
  | put data fs =>
    obtain ⟨sender, hsender, hput⟩ := Option.bind_eq_some_iff.mp h
    unfold putWS at hput
    split_ifs at hput with hlarge hctx hclosed hroom
    · obtain ⟨rfl, rfl⟩ := Prod.mk.inj (Option.some.inj hput)
      exact .quiet _ _ (.inl ⟨rfl, rfl⟩) (fun _ => trivial) rfl nofun (.inr ⟨rfl, rfl⟩)
    · obtain ⟨rfl, rfl⟩ := Prod.mk.inj (Option.some.inj hput)
      exact .quiet _ _ (.inl ⟨rfl, rfl⟩) (fun _ => trivial) rfl nofun (.inr ⟨rfl, rfl⟩)
    · obtain ⟨rfl, rfl⟩ := Prod.mk.inj (Option.some.inj hput)
      exact ⟨.inl ⟨rfl, rfl⟩, .inl ⟨rfl, rfl⟩, fun _ => trivial, rfl,
        .inr ⟨⟨data, fs, sender, rfl, hsender, rfl, rfl⟩, rfl, rfl⟩⟩

/-- A call begins. -/
theorem exec_call {data : Bytes} {rest : List Bytes}
    (hpc : pc = .idle ∨ ∃ result, pc = .returned result) :
    Exec s s i ⟨pc, data :: rest⟩ ⟨.rooms data, rest⟩ := by
  rcases hpc with rfl | ⟨result, rfl⟩
  · exact .quiet _ _ (.inl ⟨rfl, rfl⟩) id rfl nofun (.inl rfl)
  · exact .quiet _ _ (.inl ⟨rfl, rfl⟩) id rfl nofun (.inl rfl)

theorem advance_spec {s' : Sends n} (h : s.advance cfg i ctx = some s') :
    ∃ c c' t, s.callers[i]? = some c ∧ Exec s t i c c' ∧
      s' = { t with callers := s.callers.set i c' } := by
  obtain ⟨⟨pc, rest⟩, hc, h⟩ := Option.bind_eq_some_iff.mp h
  dsimp only at h
  split at h
  · next data rest =>
    exact ⟨_, _, s, hc, exec_call (.inl rfl), (Option.some.inj h).symm⟩
  · next result data rest =>
    exact ⟨_, _, s, hc, exec_call (.inr ⟨result, rfl⟩), (Option.some.inj h).symm⟩
  · obtain ⟨⟨t, pc'⟩, hexec, rfl⟩ := Option.map_eq_some_iff.mp h
    exact ⟨_, _, t, hc, exec_spec hexec rest, rfl⟩

/-! ### The write lock -/

/-- At most one caller holds `flowMu` for writing, and only while it is held. -/
structure Excl (s : Sends n) : Prop where
  one : AtMostOne (fun c : Caller => Holding c.pc = true) s.callers
  writing : ∀ c ∈ s.callers, Holding c.pc = true → s.writing = true

/-- A caller that comes to hold the lock finds it free; one that held it is the only one. -/
theorem Excl.set {writing : Bool} {c c' : Caller} (h : Excl s) (hc : s.callers[i]? = some c)
    (hlock : (Holding c'.pc = Holding c.pc ∧ writing = s.writing) ∨
      (s.writing = false ∧ writing = true) ∨ (Holding c.pc = true ∧ Holding c'.pc = false)) :
    AtMostOne (fun c : Caller => Holding c.pc = true) (s.callers.set i c') ∧
      ∀ d ∈ s.callers.set i c', Holding d.pc = true → writing = true := by
  have hmem : c ∈ s.callers := List.mem_of_getElem? hc
  rcases hlock with ⟨hsame, hwriting⟩ | ⟨hfree, hwriting⟩ | ⟨hheld, hleft⟩
  · refine ⟨h.one.set_of_imp hc fun h => hsame ▸ h, fun d hd hheld => ?_⟩
    rw [hwriting]
    rcases List.mem_or_eq_of_mem_set hd with hd | rfl
    · exact h.writing d hd hheld
    · exact h.writing c hmem (hsame ▸ hheld)
  · have hnone : ∀ d ∈ s.callers, ¬ Holding d.pc = true := fun d hd hheld =>
      absurd (h.writing d hd hheld) (by rw [hfree]; exact Bool.false_ne_true)
    refine ⟨.set_of_others fun d hd => hnone d (List.mem_of_mem_eraseIdx hd), fun _ _ _ => hwriting⟩
  · have hothers := h.one.not_others hc hheld
    refine ⟨.set_of_others hothers, fun d hd hheld' => ?_⟩
    rcases eq_or_mem_eraseIdx_of_mem_set hd with rfl | hd
    · exact absurd hheld' (by rw [hleft]; exact Bool.false_ne_true)
    · exact absurd hheld' (hothers d hd)

/-! ### The table -/

/-- The table and the senders that were created belong together. -/
structure Table (s : Sends n) : Prop where
  sender : ∀ key fs, s.flows key = some fs →
    ∃ idx, (s.senders.map FlowSender.chIdx)[fs]? = some idx ∧ idx.val = roomOf n key
  created : ∀ fs < s.senders.length, ∃ key, s.flows key = some fs
  distinct : ∀ key key' fs, s.flows key = some fs → s.flows key' = some fs → key = key'
  card : (keys s).encard = s.senders.length

theorem SameTable.length (h : SameTable s t) : t.senders.length = s.senders.length := by
  have hlength := congrArg List.length h.rooms
  rwa [List.length_map, List.length_map] at hlength

theorem Table.congr (h : Table s) (hsame : SameTable s t) : Table t where
  sender key fs hfs := by
    rw [hsame.rooms]
    exact h.sender key fs (hsame.flows ▸ hfs)
  created fs hlt := by
    rw [hsame.flows]
    exact h.created fs (hsame.length ▸ hlt)
  distinct key key' fs hfs hfs' := h.distinct key key' fs (hsame.flows ▸ hfs) (hsame.flows ▸ hfs')
  card := by
    rw [keys, hsame.flows, hsame.length]
    exact h.card

/-- What the table says after an insertion. -/
theorem flows_of_inserts {data : Bytes} {fs : ℕ} {key : FlowKey}
    (hflows : t.flows = Function.update s.flows (extractFlowKey data) (some s.senders.length))
    (hfs : t.flows key = some fs) :
    (key = extractFlowKey data ∧ fs = s.senders.length) ∨ s.flows key = some fs := by
  rw [hflows] at hfs
  rcases eq_or_ne key (extractFlowKey data) with rfl | hne
  · rw [Function.update_self, Option.some.injEq] at hfs
    exact .inl ⟨rfl, hfs.symm⟩
  · rw [Function.update_of_ne hne] at hfs
    exact .inr hfs

/-- No sender of the table has the number of the next. -/
theorem Table.lt_length {key : FlowKey} {fs : ℕ} (h : Table s) (hfs : s.flows key = some fs) :
    fs < s.senders.length := by
  obtain ⟨idx, hidx, -⟩ := h.sender key fs hfs
  simpa using (List.getElem?_eq_some_iff.mp hidx).1

/-- The caller that inserts has found no sender for its key. -/
theorem Table.insert (h : Table s) (hok : CallerOk s pc) (hins : Inserts s t pc) :
    Table t := by
  obtain ⟨data, idx, rfl, hidx, hflows, hsenders⟩ := hins
  have hnew : s.flows (extractFlowKey data) = none := hok
  refine ⟨fun key fs hfs => ?_, fun fs hlt => ?_, fun key key' fs hfs hfs' => ?_, ?_⟩
  · rw [hsenders, List.map_append]
    rcases flows_of_inserts hflows hfs with ⟨rfl, rfl⟩ | hold
    · exact ⟨idx, by simp, hidx⟩
    · obtain ⟨idx', hidx', hroom⟩ := h.sender key fs hold
      have hlt : fs < (s.senders.map FlowSender.chIdx).length := by simpa using h.lt_length hold
      exact ⟨idx', by rw [List.getElem?_append_left hlt, hidx'], hroom⟩
  · rw [hsenders, List.length_append, List.length_singleton] at hlt
    rw [hflows]
    rcases Nat.lt_succ_iff_lt_or_eq.mp hlt with hold | rfl
    · obtain ⟨key, hkey⟩ := h.created fs hold
      have hne : key ≠ extractFlowKey data := fun heq => nomatch (heq ▸ hkey).symm.trans hnew
      exact ⟨key, by rw [Function.update_of_ne hne, hkey]⟩
    · exact ⟨extractFlowKey data, Function.update_self ..⟩
  · rcases flows_of_inserts hflows hfs with ⟨rfl, rfl⟩ | hold
    · rcases flows_of_inserts hflows hfs' with ⟨rfl, -⟩ | hold'
      · rfl
      · exact absurd (h.lt_length hold') (Nat.lt_irrefl _)
    · rcases flows_of_inserts hflows hfs' with ⟨rfl, rfl⟩ | hold'
      · exact absurd (h.lt_length hold) (Nat.lt_irrefl _)
      · exact h.distinct key key' fs hold hold'
  · have hkeys : keys t = insert (extractFlowKey data) (keys s) := by
      ext key
      simp only [keys, Set.mem_ofPred_eq, Set.mem_insert_iff, hflows]
      rcases eq_or_ne key (extractFlowKey data) with rfl | hne
      · simp
      · simp [hne]
    rw [hkeys, Set.encard_insert_of_notMem (by simp [keys, hnew]), h.card, hsenders,
      List.length_append, List.length_singleton, Nat.cast_add, Nat.cast_one]

/-- A sender in the table stays there. -/
theorem flows_kept {key : FlowKey} {fs : ℕ} (hok : CallerOk s pc)
    (htable : SameTable s t ∨ Inserts s t pc) (hfs : s.flows key = some fs) :
    t.flows key = some fs := by
  rcases htable with hsame | ⟨data, idx, rfl, -, hflows, -⟩
  · rw [hsame.flows, hfs]
  · have hne : key ≠ extractFlowKey data := by
      rintro rfl
      exact nomatch (hok : s.flows _ = none).symm.trans hfs
    rw [hflows, Function.update_of_ne hne, hfs]

/-- What the other callers know stays true: a caller about to insert is alone in that. -/
theorem CallerOk.other {d : SendPc} (h : CallerOk s d) (hok : CallerOk s pc)
    (htable : SameTable s t ∨ Inserts s t pc) (hexcl : Holding pc = true → ¬ Holding d = true) :
    CallerOk t d := by
  have hkept {key : FlowKey} {fs : ℕ} : s.flows key = some fs → t.flows key = some fs :=
    flows_kept hok htable
  cases d with
  | rUnlock data fs =>
    cases fs with
    | none => trivial
    | some fs => exact hkept h
  | insert data =>
    rcases htable with hsame | ⟨data', idx, rfl, -⟩
    · exact (congrFun hsame.flows _).trans h
    · exact absurd rfl (hexcl rfl)
  | count data fs => exact hkept h
  | unlock data fs => exact hkept h
  | seqAdd data fs => exact hkept h
  | put data fs => exact hkept h
  | idle => trivial
  | rooms data => trivial
  | rLock data => trivial
  | lookup data => trivial
  | lock data => trivial
  | recheck data => trivial
  | returned result => trivial

/-! ### The queues -/

/-- The packets on a queue after one more was put on the queue of the room `r`. -/
theorem putOn_append {r r' : Fin n} {data : Bytes} (hputs : t.puts = s.puts ++ [(r, i, data)]) :
    putOn t r' = putOn s r' ++ if r = r' then [(i, data)] else [] := by
  rw [putOn, hputs, List.filter_append, List.map_append]
  by_cases hr : r = r' <;> simp [putOn, hr]

theorem putBy_append {r : Fin n} {j : ℕ} {data : Bytes}
    (hputs : t.puts = s.puts ++ [(r, i, data)]) :
    putBy t j = putBy s j ++ if i = j then [data] else [] := by
  rw [putBy, hputs, List.filter_append, List.map_append]
  by_cases hj : i = j <;> simp [putBy, hj]

/-- What has been put on a queue was there before, or is the packet of the caller. -/
theorem Exec.mem_puts {c c' : Caller} {r : Fin n} {caller : ℕ} {data : Bytes}
    (h : Exec s t i c c') (hput : (r, caller, data) ∈ t.puts) :
    (r, caller, data) ∈ s.puts ∨ ∃ fs sender, c.pc = .put data fs ∧
      s.senders[fs]? = some sender ∧ r = sender.chIdx := by
  rcases h.puts with ⟨-, hputs, -⟩ | ⟨⟨data', fs, sender, hpc, hsender, -, hputs⟩, -⟩
  · exact .inl (hputs ▸ hput)
  · rw [hputs] at hput
    rcases List.mem_append.mp hput with hold | hnew
    · exact .inl hold
    · obtain ⟨rfl, -, rfl⟩ : r = sender.chIdx ∧ caller = i ∧ data = data' := by simpa using hnew
      exact .inr ⟨fs, sender, hpc, hsender, rfl⟩

/-- What a caller has put on one queue is part of what it has put on queues. -/
theorem putOn_filter_sublist (s : Sends n) (r : Fin n) (i : ℕ) :
    (((putOn s r).filter fun p => p.1 = i).map Prod.snd).Sublist (putBy s i) := by
  have hswap : (((putOn s r).filter fun p => p.1 = i).map Prod.snd) =
      (((s.puts.filter fun p => p.2.1 = i).filter fun p => p.1 = r).map fun p => p.2.2) := by
    rw [putOn, List.filter_map, List.map_map, List.filter_filter, List.filter_filter]
    refine congrArg₂ _ rfl (List.filter_congr fun p _ => ?_)
    exact Bool.and_comm ..
  rw [hswap, putBy]
  exact List.filter_sublist.map _

/-- The packets of a caller are on queues in the order in which it sends them. -/
def Ordered (packets : List (List Bytes)) (s : Sends n) : Prop :=
  ∀ i c ps, s.callers[i]? = some c → packets[i]? = some ps →
    (putBy s i ++ pending c).Sublist ps

theorem Ordered.set {c c' : Caller} (h : Ordered packets s) (hc : s.callers[i]? = some c)
    (hexec : Exec s t i c c') :
    Ordered packets { t with callers := s.callers.set i c' } := by
  intro j d ps hd hps
  change (putBy t j ++ pending d).Sublist ps
  have hlt : i < s.callers.length := (List.getElem?_eq_some_iff.mp hc).1
  rcases eq_or_ne i j with rfl | hne
  · rw [List.getElem?_set_self hlt, Option.some.injEq] at hd
    subst hd
    have hold := h i c ps hc hps
    rcases hexec.puts with ⟨-, hputs, -, hpending⟩ |
      ⟨⟨data, fs, sender, hpc, -, -, hputs⟩, hpc', hrest⟩
    · have hsub : (pending c').Sublist (pending c) := by
        rcases hpending with heq | ⟨hpc', hrest⟩
        · rw [heq]
        · rw [pending, pending, hpc', hrest]
          exact List.sublist_append_right _ _
      rw [putBy, hputs]
      exact (hsub.append_left _).trans hold
    · rw [pending, hpc] at hold
      rw [putBy_append hputs, if_pos rfl, pending, hpc', hrest, List.append_assoc]
      exact hold
  · rw [List.getElem?_set_ne hne] at hd
    have hold := h j d ps hd hps
    rcases hexec.puts with ⟨-, hputs, -⟩ | ⟨⟨data, fs, sender, -, -, -, hputs⟩, -⟩
    · rw [putBy, hputs]
      exact hold
    · rw [putBy_append hputs, if_neg hne, List.append_nil]
      exact hold

/-- A caller is through with its packets up to the one it is at, the last of which is the last one
that it has put on a queue, if that call has returned nil. -/
def Told (packets : List (List Bytes)) (s : Sends n) : Prop :=
  ∀ i c ps, s.callers[i]? = some c → packets[i]? = some ps →
    ∃ done, ps = done ++ pending c ∧ (c.pc = .returned (.ok ()) →
      ∃ data, done.getLast? = some data ∧ (putBy s i).getLast? = some data)

theorem Told.set {c c' : Caller} (h : Told packets s) (hc : s.callers[i]? = some c)
    (hexec : Exec s t i c c') : Told packets { t with callers := s.callers.set i c' } := by
  intro j d ps hd hps
  change ∃ done, ps = done ++ pending d ∧ (d.pc = .returned (.ok ()) →
    ∃ data, done.getLast? = some data ∧ (putBy t j).getLast? = some data)
  have hlt : i < s.callers.length := (List.getElem?_eq_some_iff.mp hc).1
  rcases eq_or_ne i j with rfl | hne
  · rw [List.getElem?_set_self hlt, Option.some.injEq] at hd
    subst hd
    obtain ⟨done, hdone, -⟩ := h i c ps hc hps
    have hthrough (hpc' : packet c'.pc = []) (hrest : c'.rest = c.rest) :
        ps = (done ++ packet c.pc) ++ pending c' := by
      rw [hdone, pending, pending, hpc', hrest, List.nil_append, List.append_assoc]
    rcases hexec.puts with ⟨-, -, hnot, hpending⟩ |
      ⟨⟨data, fs, sender, hpc, -, -, hputs⟩, hpc', hrest⟩
    · rcases hpending with heq | ⟨hpc', hrest⟩
      · exact ⟨done, heq ▸ hdone, fun hret => absurd hret hnot⟩
      · exact ⟨_, hthrough hpc' hrest, fun hret => absurd hret hnot⟩
    · refine ⟨_, hthrough hpc' hrest, fun _ => ⟨data, ?_, ?_⟩⟩
      · rw [hpc]
        exact List.getLast?_concat
      · rw [putBy_append hputs, if_pos rfl, List.getLast?_concat]
  · rw [List.getElem?_set_ne hne] at hd
    obtain ⟨done, hdone, hlast⟩ := h j d ps hd hps
    have hby : putBy t j = putBy s j := by
      rcases hexec.puts with ⟨-, hputs, -⟩ | ⟨⟨data, fs, sender, -, -, -, hputs⟩, -⟩
      · rw [putBy, putBy, hputs]
      · rw [putBy_append hputs, if_neg hne, List.append_nil]
    exact ⟨done, hdone, hby ▸ hlast⟩

/-! ### The invariant -/

structure Inv (packets : List (List Bytes)) (s : Sends n) : Prop where
  excl : Excl s
  table : Table s
  callers : ∀ c ∈ s.callers, CallerOk s c.pc
  counted : (∑ r, s.roomFlows r) + s.callers.countP (fun c => Counting c.pc) = s.senders.length
  room : ∀ r caller data, (r, caller, data) ∈ s.puts → r.val = roomOf n (extractFlowKey data)
  known : ∀ key ∈ keys s, ∃ ps ∈ packets, ∃ data ∈ ps, extractFlowKey data = key
  seen : ∀ r caller data, (r, caller, data) ∈ s.puts → extractFlowKey data ∈ keys s
  queue : ∀ r, s.queues r <:+ putOn s r
  length : s.callers.length = packets.length
  order : Ordered packets s
  told : Told packets s

theorem inv_init : Inv packets (sends cfg n packets).init where
  excl := ⟨.of_forall_not (by simp [sends, Holding]), by simp [sends, Holding]⟩
  table := {
    sender := fun _ _ h => nomatch h
    created := fun _ h => absurd h (Nat.not_lt_zero _)
    distinct := fun _ _ _ h => nomatch h
    card := by simp [sends, keys] }
  callers := by simp [sends, CallerOk]
  counted := by simp [sends, Counting]
  room _ _ _ h := absurd h List.not_mem_nil
  known _ h := absurd rfl h
  seen _ _ _ h := absurd h List.not_mem_nil
  queue _ := List.suffix_refl _
  length := List.length_map _
  order i c ps hc hps := by
    change (packets.map fun rest => ({ rest } : Caller))[i]? = some c at hc
    rw [List.getElem?_map, hps, Option.map_some, Option.some.injEq] at hc
    subst hc
    exact List.Sublist.refl _
  told i c ps hc hps := by
    change (packets.map fun rest => ({ rest } : Caller))[i]? = some c at hc
    rw [List.getElem?_map, hps, Option.map_some, Option.some.injEq] at hc
    subst hc
    exact ⟨[], rfl, nofun⟩

theorem Inv.set {c c' : Caller} (h : Inv packets s) (hc : s.callers[i]? = some c)
    (hexec : Exec s t i c c') : Inv packets { t with callers := s.callers.set i c' } := by
  have hmem : c ∈ s.callers := List.mem_of_getElem? hc
  have hlt : i < s.callers.length := (List.getElem?_eq_some_iff.mp hc).1
  have hok := h.callers c hmem
  obtain ⟨hone, hwriting⟩ := h.excl.set hc hexec.lock
  refine ⟨⟨hone, hwriting⟩, ?_, ?_, ?_, ?_, ?_, ?_, ?_, ?_, h.order.set hc hexec,
    h.told.set hc hexec⟩
  · have htable : Table t := by
      rcases hexec.table with hsame | hins
      · exact h.table.congr hsame
      · exact h.table.insert hok hins
    exact htable.congr ⟨rfl, rfl⟩
  · intro d hd
    show CallerOk t d.pc
    rcases eq_or_mem_eraseIdx_of_mem_set hd with rfl | hd
    · exact hexec.own hok
    · refine (h.callers d (List.mem_of_mem_eraseIdx hd)).other hok hexec.table fun hheld => ?_
      exact h.excl.one.not_others hc hheld d hd
  · show (∑ r, t.roomFlows r) + (s.callers.set i c').countP _ = t.senders.length
    have hcounters := hexec.counters
    have hcounted := h.counted
    obtain ⟨hlt', hget⟩ := List.getElem?_eq_some_iff.mp hc
    have hpos : Counting c.pc = true → 0 < s.callers.countP fun c => Counting c.pc := fun hcount =>
      List.countP_pos_iff.mpr ⟨c, hmem, hcount⟩
    rw [List.countP_set hlt', hget]
    cases hcount : Counting c.pc <;> cases hcount' : Counting c'.pc <;>
      simp only [hcount, hcount', Bool.toNat_true, Bool.toNat_false, if_true, if_false,
        Bool.false_eq_true, forall_const] at hcounters hpos ⊢ <;>
      omega
  · intro r caller data hput
    rcases hexec.mem_puts hput with hold | ⟨fs, sender, hpc, hsender, rfl⟩
    · exact h.room r caller data hold
    · rw [hpc] at hok
      obtain ⟨idx, hidx, hroom⟩ := h.table.sender _ fs hok
      rw [List.getElem?_map, hsender, Option.map_some, Option.some.injEq] at hidx
      exact hidx ▸ hroom
  · intro key hkey
    rcases hexec.table with hsame | ⟨data, idx, hpc, -, hflows, -⟩
    · exact h.known key fun hnone => hkey ((congrFun hsame.flows key).trans hnone)
    · obtain ⟨fs, hfs⟩ := Option.ne_none_iff_exists'.mp hkey
      rcases flows_of_inserts hflows hfs with ⟨rfl, -⟩ | hold
      · have hps := List.getElem?_eq_getElem (h.length ▸ hlt)
        have hdata : data ∈ pending c := by simp [pending, packet, hpc]
        exact ⟨_, List.mem_of_getElem? hps, data,
          (h.order i c _ hc hps).subset (List.mem_append_right _ hdata), rfl⟩
      · exact h.known key fun hnone => nomatch hnone.symm.trans hold
  · intro r caller data hput
    have hkept {key : FlowKey} {fs : ℕ} (hfs : s.flows key = some fs) : t.flows key ≠ none := by
      rw [flows_kept hok hexec.table hfs]
      exact Option.some_ne_none fs
    rcases hexec.mem_puts hput with hold | ⟨fs, sender, hpc, -⟩
    · obtain ⟨fs, hfs⟩ := Option.ne_none_iff_exists'.mp (h.seen r caller data hold)
      exact hkept hfs
    · rw [hpc] at hok
      exact hkept hok
  · intro r
    show t.queues r <:+ putOn t r
    rcases hexec.puts with ⟨hqueues, hputs, -⟩ | ⟨⟨data, fs, sender, -, -, hqueues, hputs⟩, -⟩
    · rw [hqueues, putOn, hputs]
      exact h.queue r
    · rw [hqueues, putOn_append hputs]
      obtain ⟨taken, htaken⟩ := h.queue r
      rcases eq_or_ne sender.chIdx r with rfl | hne
      · rw [Function.update_self, if_pos rfl, ← htaken, List.append_assoc]
        exact List.suffix_append ..
      · rw [Function.update_of_ne hne.symm, if_neg hne, List.append_nil]
        exact h.queue r
  · exact (List.length_set ..).trans h.length

theorem Inv.surroundings (h : Inv packets s) (queues : Fin n → List (ℕ × Bytes))
    (closed : Fin n → Bool) (hqueue : ∀ r, queues r <:+ putOn s r) :
    Inv packets { s with queues, closed } where
  excl := ⟨h.excl.one, h.excl.writing⟩
  table := h.table.congr ⟨rfl, rfl⟩
  callers := h.callers
  counted := h.counted
  room := h.room
  known := h.known
  seen := h.seen
  queue := hqueue
  length := h.length
  order := h.order
  told := h.told

theorem Inv.step {s' : Sends n} {e : Event n} (h : Inv packets s)
    (hstep : (sends cfg n packets).step s e = some s') : Inv packets s' := by
  cases e with
  | caller i ctx =>
    obtain ⟨c, c', t, hc, hexec, rfl⟩ := advance_spec hstep
    exact h.set hc hexec
  | take r =>
    obtain rfl := Option.some.inj hstep
    refine h.surroundings _ _ fun r' => ?_
    rcases eq_or_ne r' r with rfl | hne
    · rw [Function.update_self]
      exact (List.tail_suffix _).trans (h.queue r')
    · rw [Function.update_of_ne hne]
      exact h.queue r'
  | close r =>
    obtain rfl := Option.some.inj hstep
    exact h.surroundings _ _ h.queue

theorem inv_of_reachable (h : (sends cfg n packets).Reachable s) : Inv packets s :=
  h.invariant inv_init fun _ _ _ hs hstep => hs.step hstep

/-- At most one caller is between its insertion and its count, since it holds the lock. -/
theorem Excl.counting (h : Excl s) : s.callers.countP (fun c => Counting c.pc) ≤ 1 := by
  refine AtMostOne.countP_le_one fun j k c d hj hk hc hd => ?_
  have hheld {pc : SendPc} (hcount : Counting pc = true) : Holding pc = true := by
    cases pc <;> first | rfl | exact nomatch hcount
  exact h.one j k c d hj hk (hheld hc) (hheld hd)

/-! ### Every run -/

theorem Inv.kept (h : Inv packets s) : Kept packets s where
  room := h.room
  known := h.known
  seen := h.seen
  queue := h.queue
  sender key fs hfs := by
    obtain ⟨idx, hidx, hroom⟩ := h.table.sender key fs hfs
    rw [List.getElem?_map] at hidx
    obtain ⟨sender, hsender, rfl⟩ := Option.map_eq_some_iff.mp hidx
    exact ⟨sender, hsender, hroom⟩
  created := h.table.created
  distinct := h.table.distinct
  counted := by rw [h.counted, h.table.card]
  counting := h.excl.counting
  order i ps r hps := by
    have hlt : i < s.callers.length := h.length ▸ (List.getElem?_eq_some_iff.mp hps).1
    have horder := h.order i _ ps (List.getElem?_eq_getElem hlt) hps
    exact (putOn_filter_sublist s r i).trans ((List.sublist_append_left _ _).trans horder)
  returned i ps c hps hc hret := by
    obtain ⟨done, hdone, hlast⟩ := h.told i c ps hc hps
    obtain ⟨data, hdata, hput⟩ := hlast hret
    obtain ⟨done, rfl⟩ := List.getLast?_eq_some_iff.mp hdata
    refine ⟨done, data, ?_, hput⟩
    rw [hdone, pending, hret, List.append_assoc]
    rfl

/-- **One room for a flow**: whatever packets any number of callers send, in every interleaving, a
packet is put on no queue but that of the room of its key's hash, and on that one if its `Send`
returns nil; the table keeps one sender for a key, the counters of the rooms add up to the number of
keys, and the packets that one caller puts on a queue are in its order. -/
theorem kept_of_reachable (cfg : Config) (packets : List (List Bytes)) (s : Sends n)
    (h : (sends cfg n packets).Reachable s) :
    Kept packets s ∧ ∀ e s', (sends cfg n packets).step s e = some s' →
      ∀ key fs, s.flows key = some fs → s'.flows key = some fs := by
  have hinv := inv_of_reachable h
  refine ⟨hinv.kept, fun e s' hstep key fs hfs => ?_⟩
  cases e with
  | caller i ctx =>
    obtain ⟨c, c', t, hc, hexec, rfl⟩ := advance_spec hstep
    show t.flows key = some fs
    exact flows_kept (hinv.callers c (List.mem_of_getElem? hc)) hexec.table hfs
  | take r =>
    obtain rfl := Option.some.inj hstep
    exact hfs
  | close r =>
    obtain rfl := Option.some.inj hstep
    exact hfs

/-- Two callers find no sender for a flow, one after the other takes the lock, and both put their
packets on the queue of one room. -/
theorem kept_of_reachable_race : ∃ s : Sends 2, (sends .default 2 [[[1]], [[2]]]).Reachable s ∧
    s.senders.length = 1 ∧ s.puts.map Prod.snd = [(0, [1]), (1, [2])] ∧ Kept [[[1]], [[2]]] s := by
  let race : List (Event 2) :=
    .replicate 5 (.caller 0 false) ++ .replicate 5 (.caller 1 false) ++
      .replicate 7 (.caller 0 false) ++ .replicate 5 (.caller 1 false)
  let system := sends .default 2 [[[1]], [[2]]]
  have hrun : (system.run system.init race).map
      (fun s => (s.senders.length, s.puts.map Prod.snd)) = some (1, [(0, [1]), (1, [2])]) := by
    decide +kernel
  obtain ⟨s, hs, heq⟩ := Option.map_eq_some_iff.mp hrun
  obtain ⟨hsenders, hputs⟩ := Prod.mk.inj heq
  exact ⟨s, ⟨race, hs⟩, hsenders, hputs, (kept_of_reachable _ _ s ⟨race, hs⟩).1⟩

end OpenFlux.Transport.Cupsonline.Sends
