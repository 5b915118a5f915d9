import Mathlib.Data.List.Nodup
import OpenFlux.Algorithm.Threads
import OpenFlux.Transport.Oneme.Exchange

/-!
# Which packets the invokes return

`readLoop` tells answers from other packets by their `seq` alone.  `invoke_returns_answer` says that
each invoke returns an error or its own answer, and that every packet that the server sent on its
own reaches the callback once, if none of them comes with the `seq` of a pending request
(`Distinct`).
-/

namespace OpenFlux.Transport.Oneme

variable {P : Type}

/-- The response with which an invoke ends. -/
def InvokePc.response : InvokePc → Option ℕ
  | .deleting (.response n) | .returned (.response n) => some n
  | _ => none

/-- The packets that an invoke got: one in the buffer of its channel, one that it returns. -/
def Invoke.packets (c : Invoke P) : List ℕ := c.ch.toList ++ c.pc.response.toList

/-- The packet that `readLoop` has in hand. -/
def LoopPc.packet : LoopPc → Option ℕ
  | .read n | .sending n _ | .unclaimed n => some n
  | .reading | .calling | .ended => none

namespace Exchange

variable {s s' : Exchange P} {i j n : ℕ} {c : Invoke P}

/-- The packet `n` was read, and why the server sent it. -/
def SentFor (s : Exchange P) (n : ℕ) (origin : Origin) : Prop :=
  ∃ packet, s.packets[n]? = some (origin, packet)

/-- What `readLoop` must not meet: a packet of the server's own with the `seq` of a pending request,
or one while there is no callback. -/
def DistinctAt (s : Exchange P) : LoopPc → Prop
  | .read n => ∀ p ∈ s.packets[n]?, p.1 = .own → s.pending p.2.seq = none
  | .unclaimed n => ∀ p ∈ s.packets[n]?, p.1 = .own → s.onEvent = true
  | _ => True

/-- The packets of the server's own are told from answers by their `seq`, and there is a callback
for them. -/
def Distinct (s : Exchange P) : Event P → Prop
  | .loop => s.DistinctAt s.loop
  | _ => True

instance (s : Exchange P) : ∀ loop, Decidable (s.DistinctAt loop)
  | .read n => inferInstanceAs (Decidable (∀ p ∈ s.packets[n]?, _ → _))
  | .unclaimed n => inferInstanceAs (Decidable (∀ p ∈ s.packets[n]?, _ → _))
  | .reading | .sending _ _ | .calling | .ended => .isTrue trivial

instance (s : Exchange P) : ∀ e, Decidable (s.Distinct e)
  | .loop => inferInstanceAs (Decidable (s.DistinctAt s.loop))
  | .invoke _ _ | .act _ _ | .setEventCallback | .message _ _ | .undecodable | .readError
  | .callback _ => .isTrue trivial

structure Inv (s : Exchange P) : Prop where
  count : s.seq = s.invokes.length
  seqs : ∀ (i : ℕ) c, s.invokes[i]? = some c → c.request.seq = i + 1
  -- an answer has the sequence number of its request
  answers : ∀ (n : ℕ) i packet, s.packets[n]? = some (.response i, packet) → packet.seq = i + 1
  -- an invoke that is not in the map yet, or still is, got nothing
  storing : ∀ (i : ℕ) c, s.invokes[i]? = some c → c.pc = .storing → c.packets = []
  pending : ∀ k i, s.pending k = some i → k = i + 1 ∧ (∀ n, s.loop ≠ .sending n i) ∧
    ∃ c, s.invokes[i]? = some c ∧ c.pc ≠ .storing ∧ c.packets = []
  sending : ∀ n i, s.loop = .sending n i → s.SentFor n (.response i) ∧
    ∃ c, s.invokes[i]? = some c ∧ c.pc ≠ .storing ∧ c.packets = []
  got : ∀ (i : ℕ) c, s.invokes[i]? = some c → ∀ n ∈ c.packets, s.SentFor n (.response i)
  -- the packet in hand is the last one, and the callback did not get it yet
  inHand : ∀ n, s.loop.packet = some n → n + 1 = s.packets.length ∧ n ∉ s.events
  events : ∀ n ∈ s.events, n < s.packets.length
  nodup : s.events.Nodup
  passed : ∀ n, s.SentFor n .own → n ∈ s.events ∨ s.loop.packet = some n

theorem inv_init : Inv ({} : Exchange P) where
  count := rfl
  seqs := nofun
  answers := nofun
  storing := nofun
  pending := nofun
  sending := nofun
  got := nofun
  inHand := nofun
  events := nofun
  nodup := List.nodup_nil
  passed := by
    rintro n ⟨packet, h⟩
    cases h

/-! ### The goroutines in `invoke` -/

/-- What a step of an invoke does: it gets no packet and loses none. -/
theorem act_cases {a : Act} (h : s.act i a = some s') :
    ∃ c c', s.invokes[i]? = some c ∧ c'.request = c.request ∧ c'.packets = c.packets ∧
      c'.pc ≠ .storing ∧
      (c.pc = .storing ∧ s' = { s with
          pending := Function.update s.pending c.request.seq (some i)
          invokes := s.invokes.set i c' } ∨
        s' = { s with invokes := s.invokes.set i c' } ∨
        s' = { s with
          pending := Function.update s.pending c.request.seq none
          invokes := s.invokes.set i c' }) := by
  obtain ⟨c, hc, hs'⟩ := Option.bind_eq_some_iff.mp h
  clear h
  split at hs'
  · next hpc =>
    cases hs'
    refine ⟨c, { c with pc := .writing }, hc, rfl, ?_, nofun, .inl ⟨hpc, rfl⟩⟩
    simp [Invoke.packets, InvokePc.response, hpc]
  · next ok hpc =>
    cases hs'
    refine ⟨c, { c with pc := if ok then .waiting else .deleting .writeError }, hc, rfl, ?_, ?_,
      .inr (.inl rfl)⟩
    · cases ok <;> simp [Invoke.packets, InvokePc.response, hpc]
    · cases ok <;> nofun
  · next hpc =>
    obtain ⟨n, hn, rfl⟩ := Option.map_eq_some_iff.mp hs'
    refine ⟨c, { c with pc := .deleting (.response n), ch := none }, hc, rfl, ?_, nofun,
      .inr (.inl rfl)⟩
    simp [Invoke.packets, InvokePc.response, hpc, hn]
  · next hpc =>
    cases hs'
    refine ⟨c, { c with pc := .deleting .timeout }, hc, rfl, ?_, nofun, .inr (.inl rfl)⟩
    simp [Invoke.packets, InvokePc.response, hpc]
  · next result hpc =>
    cases hs'
    refine ⟨c, { c with pc := .returned result }, hc, rfl, ?_, nofun, .inr (.inr rfl)⟩
    cases result <;> simp [Invoke.packets, InvokePc.response, hpc]
  · cases hs'

theorem exists_set {Q : Invoke P → Prop} {c' : Invoke P} (hc : s.invokes[i]? = some c)
    (hQ : Q c → Q c') (h : ∃ d, s.invokes[j]? = some d ∧ Q d) :
    ∃ d, (s.invokes.set i c')[j]? = some d ∧ Q d := by
  obtain ⟨d, hd, hQd⟩ := h
  rcases eq_or_ne i j with rfl | hne
  · obtain rfl := Option.some.inj (hc.symm.trans hd)
    exact ⟨c', List.getElem?_set_self (List.getElem?_eq_some_iff.mp hc).1, hQ hQd⟩
  · exact ⟨d, by rwa [List.getElem?_set_ne hne], hQd⟩

/-- An invoke moves, and the map may change. -/
theorem Inv.set (h : Inv s) {c' : Invoke P} (hc : s.invokes[i]? = some c)
    (hrequest : c'.request = c.request) (hpackets : c'.packets = c.packets)
    (hpc : c'.pc ≠ .storing) {pending : ℤ → Option ℕ}
    (hpending : ∀ k j, pending k = some j → s.pending k = some j ∨
      k = c.request.seq ∧ j = i ∧ c.pc = .storing) :
    Inv { s with pending, invokes := s.invokes.set i c' } where
  count := by rw [List.length_set]; exact h.count
  seqs j d hd := by
    rcases getElem?_set_cases hd with ⟨rfl, rfl⟩ | ⟨-, hd⟩
    · rw [hrequest]
      exact h.seqs j c hc
    · exact h.seqs j d hd
  answers := h.answers
  storing j d hd hstoring := by
    rcases getElem?_set_cases hd with ⟨rfl, rfl⟩ | ⟨-, hd⟩
    · exact absurd hstoring hpc
    · exact h.storing j d hd hstoring
  pending k j hk := by
    rcases hpending k j hk with hold | ⟨rfl, rfl, hstoring⟩
    · obtain ⟨hkj, hloop, hd⟩ := h.pending k j hold
      exact ⟨hkj, hloop, exists_set hc (fun hQ => ⟨hpc, hpackets.trans hQ.2⟩) hd⟩
    · refine ⟨h.seqs j c hc, fun n hn => ?_, c',
        List.getElem?_set_self (List.getElem?_eq_some_iff.mp hc).1, hpc,
        hpackets.trans (h.storing j c hc hstoring)⟩
      obtain ⟨d, hd, hne, -⟩ := (h.sending n j hn).2
      obtain rfl := Option.some.inj (hc.symm.trans hd)
      exact hne hstoring
  sending n j hn := by
    obtain ⟨hsent, hd⟩ := h.sending n j hn
    exact ⟨hsent, exists_set hc (fun hQ => ⟨hpc, hpackets.trans hQ.2⟩) hd⟩
  got j d hd n hn := by
    rcases getElem?_set_cases hd with ⟨rfl, rfl⟩ | ⟨-, hd⟩
    · rw [hpackets] at hn
      exact h.got j c hc n hn
    · exact h.got j d hd n hn
  inHand := h.inHand
  events := h.events
  nodup := h.nodup
  passed := h.passed

theorem Inv.act (h : Inv s) {a : Act} (hs' : s.act i a = some s') : Inv s' := by
  obtain ⟨c, c', hc, hrequest, hpackets, hpc, hcases⟩ := act_cases hs'
  rcases hcases with ⟨hstoring, rfl⟩ | rfl | rfl
  · apply h.set hc hrequest hpackets hpc
    intro k j hk
    rw [Function.update_apply] at hk
    split_ifs at hk with hseq
    · cases hk
      exact .inr ⟨hseq, rfl, hstoring⟩
    · exact .inl hk
  · exact h.set hc hrequest hpackets hpc fun k j hk => .inl hk
  · apply h.set hc hrequest hpackets hpc
    intro k j hk
    rw [Function.update_apply] at hk
    split_ifs at hk
    exact .inl hk

theorem Inv.invoke (h : Inv s) (opcode : ℤ) (payload : P) : Inv (s.invoke opcode payload) where
  count := by
    show s.seq + 1 = ((s.invokes ++ [_]).length : ℤ)
    rw [h.count, List.length_append, List.length_singleton, Nat.cast_add, Nat.cast_one]
  seqs j d hd := by
    rcases getElem?_concat_cases hd with ⟨rfl, rfl⟩ | hd
    · exact congrArg (· + 1) h.count
    · exact h.seqs j d hd
  answers := h.answers
  storing j d hd hstoring := by
    rcases getElem?_concat_cases hd with ⟨rfl, rfl⟩ | hd
    · rfl
    · exact h.storing j d hd hstoring
  pending k j hk := by
    obtain ⟨hkj, hloop, d, hd, hclean⟩ := h.pending k j hk
    exact ⟨hkj, hloop, d, getElem?_concat_of_some hd _, hclean⟩
  sending n j hn := by
    obtain ⟨hsent, d, hd, hclean⟩ := h.sending n j hn
    exact ⟨hsent, d, getElem?_concat_of_some hd _, hclean⟩
  got j d hd n hn := by
    rcases getElem?_concat_cases hd with ⟨rfl, rfl⟩ | hd
    · cases hn
    · exact h.got j d hd n hn
  inHand := h.inHand
  events := h.events
  nodup := h.nodup
  passed := h.passed

/-! ### `readLoop` -/

theorem Inv.message (h : Inv s) {origin : Origin} {packet : MaxPacket}
    (hs' : s.message origin packet = some s') : Inv s' := by
  obtain ⟨⟨hloop, harrives⟩, hs'⟩ := Option.ite_none_right_eq_some.mp hs'
  cases hs'
  have hsent {n : ℕ} {o : Origin} (hn : s.SentFor n o) :
      ∃ p, (s.packets ++ [(origin, packet)])[n]? = some (o, p) :=
    hn.imp fun p hp => getElem?_concat_of_some hp _
  exact {
    count := h.count
    seqs := h.seqs
    answers := by
      intro n i p hp
      rcases getElem?_concat_cases hp with ⟨rfl, heq⟩ | hp
      · cases heq
        obtain ⟨c, hc, hseq⟩ := (Option.any_eq_true _ _).mp harrives
        rw [Bool.and_eq_true, decide_eq_true_iff, decide_eq_true_iff] at hseq
        exact hseq.2.trans (h.seqs i c hc)
      · exact h.answers n i p hp
    storing := h.storing
    pending := fun k j hk => ⟨(h.pending k j hk).1, nofun, (h.pending k j hk).2.2⟩
    sending := nofun
    got := fun i c hc n hn => hsent (h.got i c hc n hn)
    inHand := by
      rintro n ⟨⟩
      refine ⟨by simp, fun hn => ?_⟩
      exact absurd (h.events _ hn) (Nat.lt_irrefl _)
    events := fun n hn => (h.events n hn).trans (by simp)
    nodup := h.nodup
    passed := by
      rintro n ⟨p, hp⟩
      rcases getElem?_concat_cases hp with ⟨rfl, -⟩ | hp
      · exact .inr rfl
      · refine .inl ((h.passed n ⟨p, hp⟩).resolve_right ?_)
        rw [hloop]
        nofun }

/-- `readLoop` moves and does nothing else. -/
theorem Inv.setLoop (h : Inv s) {loop : LoopPc} (hsending : ∀ n i, loop ≠ .sending n i)
    (hkept : ∀ n, loop.packet = some n → s.loop.packet = some n)
    (hpassed : ∀ n, s.SentFor n .own → s.loop.packet = some n → loop.packet = some n) :
    Inv { s with loop } where
  count := h.count
  seqs := h.seqs
  answers := h.answers
  storing := h.storing
  pending k j hk := ⟨(h.pending k j hk).1, fun n => hsending n j, (h.pending k j hk).2.2⟩
  sending n i hn := absurd hn (hsending n i)
  got := h.got
  inHand n hn := h.inHand n (hkept n hn)
  events := h.events
  nodup := h.nodup
  passed n hn := (h.passed n hn).imp_right (hpassed n hn)

/-- An answer is claimed by the invoke whose request it answers. -/
theorem Inv.claim (h : Inv s) {origin : Origin} {packet : MaxPacket} (hloop : s.loop = .read n)
    (hpacket : s.packets[n]? = some (origin, packet)) (hi : s.pending packet.seq = some i)
    (hown : origin ≠ .own) :
    Inv { s with pending := Function.update s.pending packet.seq none, loop := .sending n i } := by
  obtain ⟨hseq, -, hclean⟩ := h.pending _ _ hi
  have horigin : origin = .response i := by
    cases origin with
    | own => exact absurd rfl hown
    | response j =>
      have hj := h.answers n j packet hpacket
      rw [show j = i by omega]
  exact {
    count := h.count
    seqs := h.seqs
    answers := h.answers
    storing := h.storing
    pending := by
      intro k j hk
      simp only [Function.update_apply] at hk
      split_ifs at hk with hne
      obtain ⟨hkj, -, hd⟩ := h.pending k j hk
      refine ⟨hkj, ?_, hd⟩
      rintro m ⟨⟩
      exact hne (hkj.trans hseq.symm)
    sending := by
      rintro m j ⟨⟩
      exact ⟨⟨packet, horigin ▸ hpacket⟩, hclean⟩
    got := h.got
    inHand := by
      rintro m ⟨⟩
      exact h.inHand n (by rw [hloop]; rfl)
    events := h.events
    nodup := h.nodup
    passed := fun m hm => (h.passed m hm).imp_right fun hp => by rwa [hloop] at hp }

/-- The invoke gets the packet. -/
theorem Inv.send (h : Inv s) (hloop : s.loop = .sending n i) (hc : s.invokes[i]? = some c) :
    Inv { s with invokes := s.invokes.set i { c with ch := some n }, loop := .reading } := by
  obtain ⟨hsent, d, hd, hpc, hclean⟩ := h.sending n i hloop
  obtain rfl := Option.some.inj (hc.symm.trans hd)
  have hresponse : c.pc.response = none := by
    rw [Invoke.packets, List.append_eq_nil_iff, Option.toList_eq_nil_iff,
      Option.toList_eq_nil_iff] at hclean
    exact hclean.2
  exact {
    count := by rw [List.length_set]; exact h.count
    seqs := by
      intro j d hd
      rcases getElem?_set_cases hd with ⟨rfl, rfl⟩ | ⟨-, hd⟩
      · exact h.seqs j c hc
      · exact h.seqs j d hd
    answers := h.answers
    storing := by
      intro j d hd hstoring
      rcases getElem?_set_cases hd with ⟨rfl, rfl⟩ | ⟨-, hd⟩
      · exact absurd hstoring hpc
      · exact h.storing j d hd hstoring
    pending := by
      intro k j hk
      obtain ⟨hkj, hfree, d, hd, hclean⟩ := h.pending k j hk
      have hne : i ≠ j := fun heq => hfree n (heq ▸ hloop)
      exact ⟨hkj, nofun, d, by rwa [List.getElem?_set_ne hne], hclean⟩
    sending := nofun
    got := by
      intro j d hd m hm
      rcases getElem?_set_cases hd with ⟨rfl, rfl⟩ | ⟨-, hd⟩
      · rw [Invoke.packets, hresponse] at hm
        obtain rfl := List.mem_singleton.mp hm
        exact hsent
      · exact h.got j d hd m hm
    inHand := nofun
    events := h.events
    nodup := h.nodup
    passed := by
      rintro m ⟨p, hp⟩
      refine .inl ((h.passed m ⟨p, hp⟩).resolve_right ?_)
      -- the packet in hand is an answer
      rw [hloop]
      rintro ⟨⟩
      obtain ⟨p', hp'⟩ := hsent
      rw [hp] at hp'
      cases hp' }

/-- The callback gets the packet. -/
theorem Inv.pass (h : Inv s) (hloop : s.loop = .unclaimed n) :
    Inv { s with loop := .calling, events := s.events ++ [n] } := by
  obtain ⟨hlast, hnew⟩ := h.inHand n (by rw [hloop]; rfl)
  exact {
    count := h.count
    seqs := h.seqs
    answers := h.answers
    storing := h.storing
    pending := fun k j hk => ⟨(h.pending k j hk).1, nofun, (h.pending k j hk).2.2⟩
    sending := nofun
    got := h.got
    inHand := nofun
    events := by
      intro m hm
      rcases List.mem_append.mp hm with hm | hm
      · exact h.events m hm
      · obtain rfl := List.mem_singleton.mp hm
        exact Nat.lt_of_succ_le hlast.le
    nodup := List.nodup_append_comm.mp (List.nodup_cons.mpr ⟨hnew, h.nodup⟩)
    passed := by
      intro m hm
      refine .inl (List.mem_append.mpr ((h.passed m hm).imp_right fun hp => ?_))
      rw [hloop] at hp
      exact List.mem_singleton.mpr (Option.some.inj hp).symm }

theorem Inv.readLoop (h : Inv s) (hdistinct : s.Distinct .loop) (hs' : s.readLoop = some s') :
    Inv s' := by
  unfold Exchange.readLoop at hs'
  split at hs'
  · next n hloop =>
    obtain ⟨⟨origin, packet⟩, hpacket, rfl⟩ := Option.map_eq_some_iff.mp hs'
    split
    · next i hi =>
      refine h.claim hloop hpacket hi ?_
      rintro rfl
      simp only [Distinct, hloop, DistinctAt] at hdistinct
      exact Option.some_ne_none i (hi.symm.trans (hdistinct _ hpacket rfl))
    · exact h.setLoop nofun (fun m hm => by rw [hloop]; exact hm)
        (fun m _ hm => by rw [hloop] at hm; exact hm)
  · next n i hloop =>
    obtain ⟨c, hc, hs'⟩ := Option.bind_eq_some_iff.mp hs'
    split_ifs at hs'
    cases hs'
    exact h.send hloop hc
  · next n hloop =>
    split_ifs at hs' with hcallback
    · cases hs'
      exact h.pass hloop
    · cases hs'
      refine h.setLoop nofun nofun ?_
      rintro m ⟨packet, hpacket⟩ hm
      rw [hloop] at hm
      obtain rfl := Option.some.inj hm
      simp only [Distinct, hloop, DistinctAt] at hdistinct
      exact absurd (hdistinct _ hpacket rfl) hcallback
  · cases hs'

/-! ### Every step -/

theorem Inv.step (h : Inv s) {e : Event P} (hdistinct : s.Distinct e)
    (hs' : (exchange P).step s e = some s') : Inv s' := by
  cases e with
  | invoke opcode payload =>
    cases hs'
    exact h.invoke opcode payload
  | act i a => exact h.act hs'
  | setEventCallback =>
    cases hs'
    exact { h with }
  | message origin packet => exact h.message hs'
  | undecodable =>
    obtain ⟨-, hs'⟩ := Option.ite_none_right_eq_some.mp hs'
    cases hs'
    exact h
  | readError =>
    obtain ⟨hloop, hs'⟩ := Option.ite_none_right_eq_some.mp hs'
    cases hs'
    exact h.setLoop nofun nofun fun m _ hm => by rw [hloop] at hm; cases hm
  | loop => exact h.readLoop hdistinct hs'
  | callback panics =>
    obtain ⟨hloop, hs'⟩ := Option.ite_none_right_eq_some.mp hs'
    cases hs'
    refine h.setLoop ?_ ?_ fun m _ hm => by rw [hloop] at hm; cases hm
    · cases panics <;> nofun
    · cases panics <;> nofun

/-! ### Progress -/

/-- The invoke can return without a step of anyone else. -/
def CanReturn (s : Exchange P) (i : ℕ) : Prop :=
  ∃ (acts : List Act) (s' : Exchange P) (c : Invoke P) (result : InvokeResult),
    (exchange P).run s (acts.map (.act i)) = some s' ∧ s'.invokes[i]? = some c ∧
      c.pc = .returned result

theorem CanReturn.of_act {a : Act} (hs' : s.act i a = some s') (h : s'.CanReturn i) :
    s.CanReturn i := by
  obtain ⟨acts, t, c, result, hrun, hc⟩ := h
  exact ⟨a :: acts, t, c, result, EventSystem.run_cons_eq_some.mpr ⟨s', hs', hrun⟩, hc⟩

theorem canReturn_of_deleting {request : Request P} {result : InvokeResult} {ch : Option ℕ}
    (hc : s.invokes[i]? = some ⟨request, .deleting result, ch⟩) : s.CanReturn i := by
  have hs' : s.act i .delete = some { s with
      pending := Function.update s.pending request.seq none
      invokes := s.invokes.set i ⟨request, .returned result, ch⟩ } := by
    rw [act, hc]
    rfl
  have hset := List.getElem?_set_self (a := (⟨request, .returned result, ch⟩ : Invoke P))
    (List.getElem?_eq_some_iff.mp hc).1
  exact .of_act hs' ⟨[], _, _, result, rfl, hset, rfl⟩

theorem canReturn_of_waiting {request : Request P} {ch : Option ℕ}
    (hc : s.invokes[i]? = some ⟨request, .waiting, ch⟩) : s.CanReturn i := by
  have hs' : s.act i .timeout = some { s with
      invokes := s.invokes.set i ⟨request, .deleting .timeout, ch⟩ } := by
    rw [act, hc]
    rfl
  exact .of_act hs'
    (canReturn_of_deleting (List.getElem?_set_self (List.getElem?_eq_some_iff.mp hc).1))

theorem canReturn_of_writing {request : Request P} {ch : Option ℕ}
    (hc : s.invokes[i]? = some ⟨request, .writing, ch⟩) : s.CanReturn i := by
  have hs' : s.act i (.write true) = some { s with
      invokes := s.invokes.set i ⟨request, .waiting, ch⟩ } := by
    rw [act, hc]
    rfl
  exact .of_act hs'
    (canReturn_of_waiting (List.getElem?_set_self (List.getElem?_eq_some_iff.mp hc).1))

/-- An invoke times out at the latest. -/
theorem canReturn (hc : s.invokes[i]? = some c) : s.CanReturn i := by
  obtain ⟨request, pc, ch⟩ := c
  cases pc with
  | storing =>
    have hs' : s.act i .store = some { s with
        pending := Function.update s.pending request.seq (some i)
        invokes := s.invokes.set i ⟨request, .writing, ch⟩ } := by
      rw [act, hc]
      rfl
    exact .of_act hs'
      (canReturn_of_writing (List.getElem?_set_self (List.getElem?_eq_some_iff.mp hc).1))
  | writing => exact canReturn_of_writing hc
  | waiting => exact canReturn_of_waiting hc
  | deleting result => exact canReturn_of_deleting hc
  | returned result => exact ⟨[], s, _, result, rfl, hc, rfl⟩

/-- `readLoop` does not block where it has a packet in hand. -/
theorem Inv.readLoop_isSome (h : Inv s) (hn : s.loop.packet = some n) :
    ∃ s', s.readLoop = some s' := by
  obtain ⟨hlast, -⟩ := h.inHand n hn
  unfold Exchange.readLoop
  split
  · next m hloop =>
    rw [hloop] at hn
    obtain rfl := Option.some.inj hn
    rw [List.getElem?_eq_getElem (by omega)]
    exact ⟨_, rfl⟩
  · next m i hloop =>
    obtain ⟨-, c, hc, -, hclean⟩ := h.sending m i hloop
    have hch : c.ch = none := by
      rw [Invoke.packets, List.append_eq_nil_iff, Option.toList_eq_nil_iff] at hclean
      exact hclean.1
    rw [hc]
    exact ⟨_, if_pos hch⟩
  · split_ifs <;> exact ⟨_, rfl⟩
  · next hread hsending hunclaimed =>
    cases hloop : s.loop with
    | read m => exact absurd hloop (hread m)
    | sending m i => exact absurd hloop (hsending m i)
    | unclaimed m => exact absurd hloop (hunclaimed m)
    | reading | calling | ended =>
      rw [hloop] at hn
      cases hn

/-! ### Every run -/

/-- **Each invoke returns an error or its own answer**, no answer is returned twice, and a packet
that the server sent on its own is passed to the callback once and never returned, in every run in
which such a packet does not come with the `seq` of a pending request. -/
theorem invoke_returns_answer {es : List (Event P)}
    (hrun : (exchange P).run (exchange P).init es = some s)
    (hdistinct : (exchange P).Along Distinct (exchange P).init es) :
    (∀ (i : ℕ) c, s.invokes[i]? = some c → s.CanReturn i) ∧
    (∀ (i : ℕ) c n, s.invokes[i]? = some c → c.pc = .returned (.response n) →
      s.SentFor n (.response i)) ∧
    (∀ (i j : ℕ) c d n, s.invokes[i]? = some c → s.invokes[j]? = some d →
      c.pc = .returned (.response n) → d.pc = .returned (.response n) → i = j) ∧
    (∀ n, s.SentFor n .own → s.loop.packet ≠ some n → s.events.count n = 1 ∧
      ∀ (i : ℕ) c, s.invokes[i]? = some c → c.pc ≠ .returned (.response n)) := by
  have hinv : Inv s := EventSystem.run_invariant
    (fun _ _ _ h hdistinct hs' => h.step hdistinct hs') inv_init hdistinct hrun
  have hanswer : ∀ (i : ℕ) c n, s.invokes[i]? = some c → c.pc = .returned (.response n) →
      s.SentFor n (.response i) := by
    intro i c n hc hpc
    apply hinv.got i c hc
    simp [Invoke.packets, InvokePc.response, hpc]
  refine ⟨fun i c hc => canReturn hc, hanswer, ?_, ?_⟩
  · intro i j c d n hc hd hci hdj
    obtain ⟨p, hp⟩ := hanswer i c n hc hci
    obtain ⟨p', hp'⟩ := hanswer j d n hd hdj
    rw [hp] at hp'
    cases hp'
    rfl
  · intro n hown hloop
    refine ⟨List.count_eq_one_of_mem hinv.nodup ((hinv.passed n hown).resolve_right hloop), ?_⟩
    intro i c hc hpc
    obtain ⟨p, hp⟩ := hown
    obtain ⟨p', hp'⟩ := hanswer i c n hc hpc
    rw [hp] at hp'
    cases hp'

/-- A packet of the server's own, and one invoke that is answered. -/
def answered : List (Event Bytes) :=
  [.setEventCallback, .invoke 6 [], .act 0 .store, .act 0 (.write true),
    .message .own ⟨11, 0, 128, 7, []⟩, .loop, .loop, .callback false,
    .message (.response 0) ⟨11, 1, 6, 1, []⟩, .loop, .loop, .act 0 .receive, .act 0 .delete]

theorem invoke_returns_answered : ∃ s : Exchange Bytes,
    (exchange Bytes).run (exchange Bytes).init answered = some s ∧
      s.invokes.map Invoke.pc = [.returned (.response 1)] ∧
      s.SentFor 1 (.response 0) ∧ s.events.count 0 = 1 := by
  obtain ⟨s, hs, hpc, hpackets, hloop⟩ : ∃ s : Exchange Bytes,
      (exchange Bytes).run (exchange Bytes).init answered = some s ∧
        s.invokes.map Invoke.pc = [.returned (.response 1)] ∧
        s.packets = [(.own, ⟨11, 0, 128, 7, []⟩), (.response 0, ⟨11, 1, 6, 1, []⟩)] ∧
        s.loop = .reading :=
    ⟨_, rfl, rfl, rfl, rfl⟩
  obtain ⟨-, hanswer, -, hown⟩ := invoke_returns_answer hs (by decide +kernel)
  obtain ⟨c, hc, hresult⟩ := List.map_eq_singleton_iff.mp hpc
  have hsent : s.SentFor 0 .own := ⟨_, by rw [hpackets]; rfl⟩
  exact ⟨s, hs, hpc, hanswer 0 c 1 (by rw [hc]; rfl) hresult,
    (hown 0 hsent (by rw [hloop]; nofun)).1⟩

/-- The server's own packet comes with the `seq` of the pending request, and the invoke returns
it. -/
theorem not_returns_answer_collision : ∃ s : Exchange Bytes,
    (exchange Bytes).run (exchange Bytes).init [.setEventCallback, .invoke 6 [], .act 0 .store,
        .act 0 (.write true), .message .own ⟨11, 0, 128, 1, []⟩, .loop, .loop, .act 0 .receive,
        .act 0 .delete] = some s ∧
      s.packets = [(.own, ⟨11, 0, 128, 1, []⟩)] ∧
      s.invokes.map Invoke.pc = [.returned (.response 0)] ∧ s.events = [] :=
  ⟨_, rfl, rfl, rfl, rfl⟩

end Exchange

end OpenFlux.Transport.Oneme
