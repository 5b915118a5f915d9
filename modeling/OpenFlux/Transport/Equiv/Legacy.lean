import OpenFlux.Transport.Equiv.Cupsonline.Flows
import OpenFlux.Transport.Equiv.Cupsonline.Room
import OpenFlux.Transport.Equiv.Docs
import OpenFlux.Transport.Equiv.DocsSession
import OpenFlux.Transport.Equiv.Volga
import OpenFlux.Transport.Legacy

/-!
# What the legacy codec delivers

A link carries packets faithfully (`Link.Carries`) when what its sending side holds and writes comes
from `Send` or the keep-alive loop, and what the receiving side makes of a message comes from the
packets in it, as long as these fit the 16-bit headers.  All four links do.  Over such a link a run
of the codec whose provider is honest delivers only what was sent (`delivered_of_run`), if every
packet has between 1 and 65534 bytes and no message that carries a keep-alive packet is handed over:
Volga's is a byte string that the codec takes for an empty packet.
-/

namespace OpenFlux.Transport

/-! ### The codec -/

/-- What is sent for a packet is received as that packet. -/
theorem receiveCompressed_compress {z : Lz4} (hz : z.Inverts) (data : Bytes) :
    receiveCompressed z (compress z data) = data := by
  have hraw : receiveCompressed z (0x00 :: data) = data := by
    rw [receiveCompressed, decompress, if_pos rfl]
  unfold compress
  dsimp only
  split_ifs
  · exact hraw
  · exact hraw
  · rw [receiveCompressed, decompress, if_neg (by decide), hz]

/-- A packet of 1 to 65534 bytes. -/
def Sendable (p : Bytes) : Prop := 1 ≤ p.length ∧ p.length ≤ 65534

/-- What is sent for a packet has at most one byte more, and at least one. -/
theorem length_compress_le (z : Lz4) (data : Bytes) :
    1 ≤ (compress z data).length ∧ (compress z data).length ≤ data.length + 1 := by
  unfold compress
  dsimp only
  split_ifs <;> simp only [List.length_cons] at * <;> omega

theorem fits_compress {z : Lz4} {data : Bytes} (h : Sendable data) : Fits (compress z data) := by
  obtain ⟨hpos, hle⟩ := length_compress_le z data
  exact ⟨hpos, by have := h.2; omega⟩

/-! ### Faithful links -/

/-- `Holds s p`: the sending side holds the packet `p`.  What it holds was sent, or is a keep-alive;
what it writes, it held; and what is received of a message was in it. -/
structure Link.Carries (L : Link) (Holds : L.Sender → Bytes → Prop) : Prop where
  init : ∀ p, ¬ Holds L.sender p
  send : ∀ {s s' p result}, L.send s p = some (s', result) →
    ∀ q, Holds s' q → Holds s q ∨ q = p ∧ result = .ok ()
  step : ∀ {s s' e ms}, L.step s e = some (s', ms) →
    (∀ q, Holds s' q → Holds s q ∨ q ∈ L.keepAlives) ∧ ∀ m ∈ ms, ∀ q ∈ L.packets m, Holds s q
  receive : ∀ {r m x}, L.Passes m x → (∀ q ∈ L.packets m, Fits q) →
    ∀ q ∈ (L.receive r x).2, q ∈ L.packets m

/-- A packet in one of the batches after one of them is replaced. -/
theorem mem_update_batch {ι : Type*} [DecidableEq ι] {batches : ι → List Bytes} {i : ι}
    {batch : List Bytes} {q : Bytes} (h : ∃ j, q ∈ Function.update batches i batch j) :
    q ∈ batch ∨ ∃ j, q ∈ batches j :=
  ((Function.exists_update_iff batches fun _ xs => q ∈ xs).mp h).imp_right
    fun ⟨j, _, hj⟩ => ⟨j, hj⟩

namespace Legacy

variable {z : Lz4} {L : Link}

/-- The packets given to `Send` have 1 to 65534 bytes, and no message that is handed over carries a
packet of the keep-alive loop. -/
def Regular (s : State L) : Event L → Prop
  | .send data => Sendable data
  | .step _ => True
  | .hand x => ∀ m ∈ s.written, L.Passes m x → ∀ q ∈ L.packets m, q ∉ L.keepAlives

/-- The packet is what was sent for an accepted one, or a keep-alive. -/
def Known (z : Lz4) (s : State L) (q : Bytes) : Prop :=
  (∃ p ∈ s.accepted, q = compress z p) ∨ q ∈ L.keepAlives

/-- The invariant of a run. -/
structure Sound (z : Lz4) (Holds : L.Sender → Bytes → Prop) (s : State L) : Prop where
  accepted : ∀ p ∈ s.accepted, Sendable p
  held : ∀ q, Holds s.sender q → Known z s q
  written : ∀ m ∈ s.written, ∀ q ∈ L.packets m, Known z s q
  delivered : ∀ p ∈ s.delivered, p ∈ s.accepted

theorem Known.mono {s s' : State L} {q : Bytes} (h : Known z s q)
    (hacc : ∀ p ∈ s.accepted, p ∈ s'.accepted) : Known z s' q :=
  h.imp_left fun ⟨p, hp, hq⟩ => ⟨p, hacc p hp, hq⟩

/-- What the codec makes of the packets of a message without keep-alives. -/
theorem Sound.receive {Holds : L.Sender → Bytes → Prop} (hL : L.Carries Holds) (hz : z.Inverts)
    {s : State L} (h : Sound z Holds s) {x : L.Handed} {m : L.Message} (hm : m ∈ s.written)
    (hpass : L.Passes m x) (hreg : ∀ q ∈ L.packets m, q ∉ L.keepAlives) :
    ∀ q ∈ (L.receive s.receiver x).2, receiveCompressed z q ∈ s.accepted := by
  have hsent : ∀ q ∈ L.packets m, ∃ p ∈ s.accepted, q = compress z p :=
    fun q hq => (h.written m hm q hq).resolve_right (hreg q hq)
  have hfits : ∀ q ∈ L.packets m, Fits q := by
    intro q hq
    obtain ⟨p, hp, rfl⟩ := hsent q hq
    exact fits_compress (h.accepted p hp)
  intro q hq
  obtain ⟨p, hp, rfl⟩ := hsent q (hL.receive hpass hfits q hq)
  rw [receiveCompressed_compress hz]
  exact hp

theorem sound_step {Holds : L.Sender → Bytes → Prop} (hL : L.Carries Holds) (hz : z.Inverts)
    {s s' : State L} {e : Event L} (h : Sound z Holds s) (hhonest : Honest s e) (hreg : Regular s e)
    (hstep : (system z L).step s e = some s') : Sound z Holds s' := by
  cases e with
  | send data =>
    rcases hsend : L.send s.sender (compress z data) with _ | ⟨sender, err | ⟨⟩⟩
    · simp [system, hsend] at hstep
    · simp only [system, hsend, Option.some.injEq] at hstep
      subst hstep
      refine { h with held := fun q hq => ?_ }
      rcases hL.send hsend q hq with hold | ⟨-, hok⟩
      · exact h.held q hold
      · cases hok
    · simp only [system, hsend, Option.some.injEq] at hstep
      subst hstep
      have hmono : ∀ p ∈ s.accepted, p ∈ s.accepted ++ [data] := fun p => List.mem_append_left _
      have hlast : data ∈ s.accepted ++ [data] := List.mem_append_right _ (List.mem_singleton_self _)
      refine ⟨fun p hp => ?_, fun q hq => ?_, fun m hm q hq => ?_, fun p hp => ?_⟩
      · rcases List.mem_append.mp hp with hold | hnew
        · exact h.accepted p hold
        · rw [List.mem_singleton.mp hnew]
          exact hreg
      · rcases hL.send hsend q hq with hold | ⟨rfl, -⟩
        · exact (h.held q hold).mono hmono
        · exact .inl ⟨data, hlast, rfl⟩
      · exact (h.written m hm q hq).mono hmono
      · exact hmono p (h.delivered p hp)
  | step e =>
    obtain ⟨⟨sender, ms⟩, hlink, rfl⟩ := Option.map_eq_some_iff.mp hstep
    obtain ⟨hheld, hwritten⟩ := hL.step hlink
    refine ⟨h.accepted, fun q hq => ?_, fun m hm q hq => ?_, h.delivered⟩
    · rcases hheld q hq with hold | hka
      · exact h.held q hold
      · exact .inr hka
    · rcases List.mem_append.mp hm with hold | hnew
      · exact h.written m hold q hq
      · exact h.held q (hwritten m hnew q hq)
  | hand x =>
    obtain ⟨m, hm, hpass⟩ := hhonest
    have hreceive := h.receive hL hz hm hpass (hreg m hm hpass)
    rw [← Option.some.inj hstep]
    refine ⟨h.accepted, h.held, h.written, fun p hp => ?_⟩
    rcases List.mem_append.mp hp with hold | hnew
    · exact h.delivered p hold
    · obtain ⟨q, hq, rfl⟩ := List.mem_map.mp hnew
      exact hreceive q hq

/-- Over a faithful link, an honest and regular run delivers only what was accepted. -/
theorem delivered_of_run {Holds : L.Sender → Bytes → Prop} (hL : L.Carries Holds) (hz : z.Inverts)
    {es : List (Event L)} {s : State L}
    (hhonest : (system z L).Along Honest (system z L).init es)
    (hreg : (system z L).Along Regular (system z L).init es)
    (hrun : (system z L).run (system z L).init es = some s) :
    ∀ p ∈ s.delivered, p ∈ s.accepted ∧ Sendable p := by
  have hinit : Sound z Holds (system z L).init := by
    refine ⟨fun p hp => ?_, fun q hq => absurd hq (hL.init q), fun m hm => ?_, fun p hp => ?_⟩
    · exact absurd hp List.not_mem_nil
    · exact absurd hm List.not_mem_nil
    · exact absurd hp List.not_mem_nil
  have hsound : Sound z Holds s := by
    refine EventSystem.run_invariant (P := fun s e => Honest s e ∧ Regular s e) ?_ hinit
      (EventSystem.along_and.mpr ⟨hhonest, hreg⟩) hrun
    exact fun s e s' hs hP hstep => sound_step hL hz hs hP.1 hP.2 hstep
  exact fun p hp => ⟨hsound.delivered p hp, hsound.accepted p (hsound.delivered p hp)⟩

end Legacy

/-! ### The document transports -/

namespace Docs

/-- A transport holds the packets in its channels and with its writers. -/
def State.Holds (s : State) (p : Bytes) : Prop :=
  (∃ queue ∈ s.channels, p ∈ queue) ∨ ∃ w ∈ s.writers, p ∈ w.pending

/-- Connecting leaves the channels and the writers as they are, or adds one of each. -/
theorem stepConnect_cases {cfg : SessionConfig} {s s' : State} {i : ℕ} {outcome : Outcome}
    (h : s.stepConnect cfg i outcome = some s') :
    (s'.channels = s.channels ∧ s'.writers = s.writers) ∨
      (s'.channels = s.channels ++ [[]] ∧ s'.writers = s.writers ++ [.waiting]) := by
  have hschedule : ∀ (s : State) attempt,
      (s.scheduleReconnect cfg i attempt).channels = s.channels ∧
        (s.scheduleReconnect cfg i attempt).writers = s.writers := by
    intro s attempt
    unfold State.scheduleReconnect
    split_ifs <;> exact ⟨rfl, rfl⟩
  rcases hi : s.connectors[i]? with _ | attempt | ⟨attempt, existing⟩ | ⟨attempt, existing⟩ |
    attempt | next
  · simp [State.stepConnect, hi] at h
  · simp only [State.stepConnect, hi, Option.some.injEq] at h
    exact .inl (h ▸ ⟨rfl, rfl⟩)
  · rcases outcome with _ | late
    · simp only [State.stepConnect, hi, Option.some.injEq] at h
      exact .inl (h ▸ ⟨rfl, rfl⟩)
    · simp only [State.stepConnect, hi, Option.some.injEq] at h
      exact .inl (h ▸ hschedule s attempt)
  · rcases outcome with _ | late
    · simp only [State.stepConnect, hi, Option.some.injEq] at h
      rcases existing with _ | existing
      · exact .inr (h ▸ ⟨rfl, rfl⟩)
      · exact .inl (h ▸ ⟨rfl, rfl⟩)
    · simp only [State.stepConnect, hi, Option.some.injEq] at h
      exact .inl (h ▸ hschedule s attempt)
  · rcases outcome with _ | late
    · simp only [State.stepConnect, hi, Option.some.injEq] at h
      exact .inl (h ▸ ⟨rfl, rfl⟩)
    · simp only [State.stepConnect, hi, Option.some.injEq] at h
      exact .inl (h ▸ hschedule _ _)
  · simp only [State.stepConnect, hi, Option.some.injEq] at h
    exact .inl (h ▸ ⟨rfl, rfl⟩)

/-- A writer that is given a packet that is held. -/
theorem holds_set_writers {s : State} {i : ℕ} {w : WriterPc} {p : Bytes}
    (hw : p ∈ w.pending → s.Holds p) (hp : ∃ v ∈ s.writers.set i w, p ∈ v.pending) : s.Holds p := by
  obtain ⟨v, hv, hp⟩ := hp
  rcases List.mem_or_eq_of_mem_set hv with hold | rfl
  · exact .inr ⟨v, hold, hp⟩
  · exact hw hp

/-- A writer takes what it holds from a channel. -/
theorem holds_of_stepWriter {s s' : State} {i : ℕ} {outcome : Outcome} {p : Bytes}
    (h : s.stepWriter i outcome = some s') (hp : s'.Holds p) : s.Holds p := by
  have hnone : ∀ queue, p ∈ (WriterPc.receiving queue).pending → s.Holds p :=
    fun _ hp => absurd hp List.not_mem_nil
  rcases hi : s.writers[i]? with _ | _ | queue | ⟨queue, packet⟩
  · simp [State.stepWriter, hi] at h
  · rcases hsession : s.session with _ | session
    · simp only [State.stepWriter, hi, hsession, Option.some.injEq] at h
      exact h ▸ hp
    · simp only [State.stepWriter, hi, hsession, Option.some.injEq] at h
      subst h
      exact hp.elim .inl (holds_set_writers (hnone _))
  · rcases hchannel : s.channels[queue]? with _ | _ | ⟨packet, rest⟩
    · simp [State.stepWriter, hi, hchannel] at h
    · simp [State.stepWriter, hi, hchannel] at h
    · have hmem := List.mem_of_getElem? hchannel
      simp only [State.stepWriter, hi, hchannel, Option.some.injEq] at h
      subst h
      rcases hp with ⟨queue', hqueue', hp⟩ | hwriter
      · rcases List.mem_or_eq_of_mem_set hqueue' with hold | rfl
        · exact .inl ⟨queue', hold, hp⟩
        · exact .inl ⟨_, hmem, List.mem_cons_of_mem _ hp⟩
      · refine holds_set_writers (fun hp => .inl ⟨_, hmem, ?_⟩) hwriter
        rw [List.mem_singleton.mp hp]
        exact List.mem_cons_self ..
  · rcases hsession : s.session with _ | session
    · simp only [State.stepWriter, hi, hsession, Option.some.injEq] at h
      exact h ▸ hp
    · rcases outcome with _ | late
      · simp only [State.stepWriter, hi, hsession, Option.some.injEq] at h
        subst h
        exact hp.elim .inl (holds_set_writers (hnone _))
      · simp only [State.stepWriter, hi, hsession, Option.some.injEq] at h
        exact h ▸ hp

theorem holds_of_writes {s : State} {i : ℕ} {outcome : Outcome} {p : Bytes}
    (h : s.writes i outcome = some p) : s.Holds p := by
  unfold State.writes at h
  split at h
  · next hi _ =>
    rw [Option.some.injEq] at h
    exact .inr ⟨_, List.mem_of_getElem? hi, List.mem_singleton.mpr h.symm⟩
  · cases h

theorem holds_of_sendNow {cfg : SessionConfig} {s : State} {data p : Bytes}
    (hp : (s.sendNow cfg data).1.Holds p) :
    s.Holds p ∨ p = data ∧ (s.sendNow cfg data).2 = .ok () := by
  unfold State.sendNow at hp ⊢
  split_ifs at hp ⊢
  · rcases hsession : s.session with _ | session
    · simp only [hsession] at hp
      exact .inl hp
    · rcases hchannel : s.channels[session.writeQueue]? with _ | queue
      · simp only [hsession, hchannel] at hp
        exact .inl hp
      · simp only [hsession, hchannel] at hp ⊢
        split_ifs at hp ⊢
        · rcases hp with ⟨queue', hqueue', hp⟩ | hwriter
          · rcases List.mem_or_eq_of_mem_set hqueue' with hold | rfl
            · exact .inl (.inl ⟨queue', hold, hp⟩)
            · rcases List.mem_append.mp hp with hin | hnew
              · exact .inl (.inl ⟨queue, List.mem_of_getElem? hchannel, hin⟩)
              · exact .inr ⟨List.mem_singleton.mp hnew, rfl⟩
          · exact .inl (.inr hwriter)
        · exact .inl hp
  · exact .inl hp

/-- A new session holds nothing yet. -/
theorem holds_of_stepConnect {cfg : SessionConfig} {s s' : State} {i : ℕ}
    {outcome : Outcome} {p : Bytes} (h : s.stepConnect cfg i outcome = some s')
    (hp : s'.Holds p) : s.Holds p := by
  rcases stepConnect_cases h with ⟨hchannels, hwriters⟩ | ⟨hchannels, hwriters⟩
  · rwa [State.Holds, hchannels, hwriters] at hp
  · rw [State.Holds, hchannels, hwriters] at hp
    rcases hp with ⟨queue, hqueue, hp⟩ | ⟨w, hw, hp⟩
    · rcases List.mem_append.mp hqueue with hold | hnew
      · exact .inl ⟨queue, hold, hp⟩
      · rw [List.mem_singleton.mp hnew] at hp
        exact absurd hp List.not_mem_nil
    · rcases List.mem_append.mp hw with hold | hnew
      · exact .inr ⟨w, hold, hp⟩
      · rw [List.mem_singleton.mp hnew] at hp
        exact absurd hp List.not_mem_nil

theorem stepKeepAlive_cases (s : State) (outcome : Outcome) :
    s.stepKeepAlive outcome = s ∨ s.stepKeepAlive outcome = { s with connected := false } := by
  unfold State.stepKeepAlive
  split
  · exact .inr rfl
  · exact .inl rfl

/-- A packet's message is taken for the packet or dropped. -/
theorem packets_packetMessage (provider : Provider) {p : Bytes} (hp : p ≠ []) :
    ∀ q ∈ (provider.handleMessage (packetMessage p)).packets, q = p := by
  intro q hq
  cases provider with
  | yandex =>
    rw [Provider.handleMessage, yandex_handleMessage hp] at hq
    split_ifs at hq
    · exact absurd hq List.not_mem_nil
    · exact List.mem_singleton.mp hq
  | mailru =>
    rw [Provider.handleMessage, mailru_handleMessage hp] at hq
    exact List.mem_singleton.mp hq

theorem carries (provider : Provider) (cfg : SessionConfig) :
    (docsLink provider cfg).Carries State.Holds where
  init := by
    rintro p (⟨queue, hqueue, -⟩ | ⟨w, hw, -⟩)
    · exact absurd hqueue List.not_mem_nil
    · exact absurd hw List.not_mem_nil
  send := by
    intro s s' p result hsend q hq
    obtain ⟨rfl, rfl⟩ := Prod.mk.inj (Option.some.inj hsend)
    exact holds_of_sendNow hq
  step := by
    intro s s' e ms hstep
    cases e with
    | connect i outcome =>
      obtain ⟨t, hconnect, heq⟩ := Option.map_eq_some_iff.mp hstep
      obtain ⟨rfl, rfl⟩ := Prod.mk.inj heq
      exact ⟨fun q hq => .inl (holds_of_stepConnect hconnect hq),
        fun m hm => absurd hm List.not_mem_nil⟩
    | write i outcome =>
      obtain ⟨t, hwriter, heq⟩ := Option.map_eq_some_iff.mp hstep
      obtain ⟨rfl, rfl⟩ := Prod.mk.inj heq
      refine ⟨fun q hq => .inl (holds_of_stepWriter hwriter hq), fun m hm q hq => ?_⟩
      obtain ⟨p, hp, rfl⟩ := Option.map_eq_some_iff.mp (Option.mem_toList.mp hm)
      rw [List.mem_singleton.mp hq]
      exact holds_of_writes hp
    | keepAlive outcome =>
      obtain ⟨rfl, rfl⟩ := Prod.mk.inj (Option.some.inj hstep)
      refine ⟨fun q hq => .inl ?_, fun m hm q hq => ?_⟩
      · rcases stepKeepAlive_cases s outcome with hsame | hdown
        · rwa [hsame] at hq
        · rwa [hdown] at hq
      · split_ifs at hm
        · rw [List.mem_singleton.mp hm] at hq
          exact absurd hq List.not_mem_nil
        · exact absurd hm List.not_mem_nil
  receive := by
    rintro r m x rfl hfits q hq
    cases m with
    | packet p =>
      have hp : p ≠ [] := List.ne_nil_of_length_pos (hfits p (List.mem_singleton_self p)).1
      rw [packets_packetMessage provider hp q hq]
      exact List.mem_singleton_self p
    | keepAlive =>
      replace hq : q ∈ (provider.handleMessage keepAliveMsg).packets := hq
      rw [handleMessage_keepAliveMsg] at hq
      exact hq

/-- Under the codec, the transport runs as it does on its own. -/
theorem reachable_sender {z : Lz4} {provider : Provider} {cfg : SessionConfig}
    {s : Legacy.State (docsLink provider cfg)}
    (h : (Legacy.system z (docsLink provider cfg)).Reachable s) :
    (sessions cfg).Reachable s.sender ∧ s.sender.sends = [] := by
  refine h.invariant (I := fun s => (sessions cfg).Reachable s.sender ∧ s.sender.sends = [])
    ⟨EventSystem.Reachable.init, rfl⟩ ?_
  rintro s e s' ⟨hreach, hsends⟩ hstep
  have hevent : ∀ {e : Event} {t : State}, (∀ data, e ≠ .call data) →
      (sessions cfg).step s.sender e = some t → (sessions cfg).Reachable t ∧ t.sends = [] :=
    fun he ht => ⟨hreach.step ht, sends_of_step hsends he ht⟩
  cases e with
  | send data =>
    have hgood : Good s.sender := hreach.invariant good_init fun _ _ _ => good_step
    have hrun : ∃ es, (sessions cfg).run s.sender es =
        some (State.sendNow cfg s.sender (compress z data)).1 := run_sendNow hgood hsends _
    obtain ⟨es, hes⟩ := hrun
    have hnow : s'.sender = (State.sendNow cfg s.sender (compress z data)).1 := by
      rcases hsend : State.sendNow cfg s.sender (compress z data) with ⟨sender, err | ⟨⟩⟩
      · simp only [Legacy.system, docsLink, hsend] at hstep
        rw [← Option.some.inj hstep]
      · simp only [Legacy.system, docsLink, hsend] at hstep
        rw [← Option.some.inj hstep]
    rw [hnow]
    exact ⟨hreach.run hes, (sends_sendNow s.sender _).trans hsends⟩
  | step e =>
    obtain ⟨⟨sender, ms⟩, hlink, rfl⟩ := Option.map_eq_some_iff.mp hstep
    cases e with
    | connect i outcome =>
      obtain ⟨t, ht, heq⟩ := Option.map_eq_some_iff.mp hlink
      obtain ⟨rfl, -⟩ := Prod.mk.inj heq
      exact hevent (e := .connect i outcome) nofun ht
    | write i outcome =>
      obtain ⟨t, ht, heq⟩ := Option.map_eq_some_iff.mp hlink
      obtain ⟨rfl, -⟩ := Prod.mk.inj heq
      exact hevent (e := .write i outcome) nofun ht
    | keepAlive outcome =>
      obtain ⟨rfl, -⟩ := Prod.mk.inj (Option.some.inj hlink)
      exact hevent (e := .keepAlive outcome) nofun rfl
  | hand x => exact Option.some.inj hstep ▸ ⟨hreach, hsends⟩

end Docs

/-! ### The Volga transport -/

namespace Volga

/-- The workers hold the packets in the queue and in their batches. -/
def Workers.Holds {cfg : Config} (r : Workers cfg) (p : Bytes) : Prop :=
  p ∈ r.queue ∨ ∃ w, p ∈ r.batches w

/-- What `Send` leaves on the queue was there or is what was sent. -/
theorem mem_of_mem_send {cfg : Config} {queue : List Bytes} {data q : Bytes}
    (hq : q ∈ (send cfg queue data).1) :
    q ∈ queue ∨ q = data ∧ (send cfg queue data).2 = .ok () := by
  unfold send at hq ⊢
  split_ifs at hq ⊢
  · exact .inl hq
  · exact .inl hq
  · rcases List.mem_append.mp hq with hold | hnew
    · exact .inl hold
    · exact .inr ⟨List.mem_singleton.mp hnew, rfl⟩
  · exact .inl hq

theorem Workers.holds_of_take {cfg : Config} {r r' : Workers cfg} {w : Fin cfg.workerCount}
    (h : r.take w = some r') {q : Bytes} (hq : r'.Holds q) : r.Holds q := by
  unfold Workers.take at h
  dsimp only at h
  split_ifs at h
  split at h
  · next pkt queue hqueue =>
    rw [← Option.some.inj h] at hq
    have hmem : ∀ x ∈ pkt :: queue, r.Holds x := fun x hx => .inl (hqueue ▸ hx)
    rcases hq with hq | hq
    · exact hmem q (List.mem_cons_of_mem _ hq)
    · rcases mem_update_batch hq with hbatch | hold
      · rcases List.mem_append.mp hbatch with hold | hnew
        · exact .inr ⟨w, hold⟩
        · rw [List.mem_singleton.mp hnew]
          exact hmem pkt (List.mem_cons_self ..)
      · exact .inr hold
  · cases h

theorem carries (cfg : Config) (client : RelayClient) :
    (volgaLink cfg client).Carries Workers.Holds where
  init := by
    rintro p (hp | ⟨w, hp⟩)
    · exact absurd hp List.not_mem_nil
    · exact absurd hp List.not_mem_nil
  send := by
    intro r r' p result hsend q hq
    obtain ⟨rfl, rfl⟩ := Prod.mk.inj (Option.some.inj hsend)
    rcases hq with hqueue | hbatch
    · exact (mem_of_mem_send hqueue).imp_left .inl
    · exact .inl (.inr hbatch)
  step := by
    intro r r' e ms hstep
    cases e with
    | take w =>
      obtain ⟨t, htake, heq⟩ := Option.map_eq_some_iff.mp hstep
      obtain ⟨rfl, rfl⟩ := Prod.mk.inj heq
      exact ⟨fun q hq => .inl (Workers.holds_of_take htake hq),
        fun m hm => absurd hm List.not_mem_nil⟩
    | flush w =>
      obtain ⟨t, hflush, heq⟩ := Option.map_eq_some_iff.mp hstep
      obtain ⟨rfl, rfl⟩ := Prod.mk.inj heq
      unfold Workers.flush at hflush
      dsimp only at hflush
      split_ifs at hflush
      rw [← Option.some.inj hflush]
      refine ⟨fun q hq => .inl (hq.imp_right fun hq => ?_), fun m hm q hq => ?_⟩
      · exact (mem_update_batch hq).resolve_left List.not_mem_nil
      · rw [List.mem_singleton.mp hm] at hq
        exact .inr ⟨w, hq⟩
    | keepAlive =>
      obtain ⟨rfl, rfl⟩ := Prod.mk.inj (Option.some.inj hstep)
      refine ⟨fun q hq => ?_, fun m hm => absurd hm List.not_mem_nil⟩
      rcases hq with hqueue | hbatch
      · rcases mem_of_mem_send hqueue with hold | ⟨rfl, -⟩
        · exact .inl (.inl hold)
        · exact .inr (List.mem_singleton_self _)
      · exact .inl (.inr hbatch)
  receive := by
    intro frontier m x hpass hfits q hq
    obtain ⟨message, id, hposted, -, hhandle⟩ :=
      handleRelayMessage_sendBatch m.client frontier m.batch
    obtain rfl := Option.some.inj (hposted.symm.trans hpass)
    have hdecode : decodeBatch (frameBatch m.batch) = m.batch :=
      (decodeBatch_frameBatch_iff fun p hp => List.ne_nil_of_length_pos (hfits p hp).1).mpr
        (.inl fun p hp => (hfits p hp).2)
    replace hq : q ∈ (handleRelayMessage frontier message).2 := hq
    rwa [hhandle, hdecode] at hq

end Volga

/-! ### The Cups.online transport -/

namespace Cupsonline

variable {n : ℕ}

/-- The rooms hold the packets on their queues and in their batches. -/
def Rooms.Holds (r : Rooms n) (p : Bytes) : Prop :=
  (∃ i, p ∈ r.cups.queues i) ∨ ∃ i, p ∈ r.batches i

/-- What a room makes of what is handed over for a message was in the message. -/
theorem mem_of_mem_handleMessage {w : Room} {m : Message} {raw : Json} (hpass : m.Passes raw)
    (hfits : ∀ q ∈ m.packets, Fits q) : ∀ q ∈ (handleMessage w raw).2, q ∈ m.packets := by
  intro q hq
  cases m with
  | cursors v batch =>
    rcases hpass with rfl | ⟨user, hpush⟩
    · rw [handleMessage_of_none rfl] at hq
      exact absurd hq List.not_mem_nil
    · by_cases huser : user = w.userUUID
      · subst huser
        rw [handleMessage_of_none hpush.pushedColumn_own] at hq
        exact absurd hq List.not_mem_nil
      · have hread : (readRecords (frameBatch batch)).1 = batch :=
          readRecords_frameBatch_iff.mpr hfits
        rw [handleMessage_of_push hpush huser, hread] at hq
        exact hq
  | ping v =>
    obtain rfl : raw = sharedEditorPing v := hpass
    rw [handleMessage_of_none rfl] at hq
    exact absurd hq List.not_mem_nil

theorem carries (cfg : Config) (rooms peers : Fin n → Room) :
    (cupsLink cfg rooms peers).Carries Rooms.Holds where
  init := by
    rintro p (⟨i, hp⟩ | ⟨i, hp⟩)
    · exact absurd hp List.not_mem_nil
    · exact absurd hp List.not_mem_nil
  send := by
    intro r r' p result hsend q hq
    obtain ⟨⟨cups, result⟩, hcups, heq⟩ := Option.map_eq_some_iff.mp hsend
    obtain ⟨rfl, rfl⟩ := Prod.mk.inj heq
    rcases hq with ⟨i, hq⟩ | hbatch
    · rcases mem_of_mem_send hcups hq with hold | ⟨⟨hp, -⟩, hok⟩
      · exact .inl (.inl ⟨i, hold⟩)
      · exact .inr ⟨hp, hok⟩
    · exact .inl (.inr hbatch)
  step := by
    intro r r' e ms hstep
    replace hstep : step cfg r e = some (r', ms) := hstep
    cases e with
    | take i =>
      unfold step at hstep
      dsimp only at hstep
      split_ifs at hstep
      split at hstep
      · next pkt queue hqueue =>
        obtain ⟨rfl, rfl⟩ := Prod.mk.inj (Option.some.inj hstep)
        refine ⟨fun q hq => .inl ?_, fun m hm => absurd hm List.not_mem_nil⟩
        rcases hq with ⟨j, hq⟩ | hq
        · exact .inl ⟨j, mem_of_mem_take hq⟩
        · rcases mem_update_batch hq with hbatch | hold
          · rcases List.mem_append.mp hbatch with hold | hnew
            · exact .inr ⟨i, hold⟩
            · refine .inl ⟨i, ?_⟩
              rw [hqueue, List.mem_singleton.mp hnew]
              exact List.mem_cons_self ..
          · exact .inr hold
      · cases hstep
    | flush i written =>
      unfold step at hstep
      dsimp only at hstep
      split_ifs at hstep
      obtain ⟨rfl, rfl⟩ := Prod.mk.inj (Option.some.inj hstep)
      refine ⟨fun q hq => .inl (hq.imp_right fun hq => ?_), fun m hm q hq => ?_⟩
      · exact (mem_update_batch hq).resolve_left List.not_mem_nil
      · rw [List.mem_singleton.mp hm] at hq
        exact .inr ⟨i, hq⟩
    | ping i =>
      obtain ⟨rfl, rfl⟩ := Prod.mk.inj (Option.some.inj hstep)
      refine ⟨fun q hq => .inl hq, fun m hm q hq => ?_⟩
      rw [List.mem_singleton.mp hm] at hq
      exact absurd hq List.not_mem_nil
  receive := fun hpass hfits => mem_of_mem_handleMessage hpass hfits

end Cupsonline

/-! ### All transports -/

/-- Every raw transport carries packets faithfully. -/
theorem exists_carries (o : RawConfig) (t : RawTransport) : ∃ Holds, (o.link t).Carries Holds := by
  cases t with
  | docs provider => exact ⟨_, Docs.carries provider o.docs⟩
  | volga => exact ⟨_, Volga.carries o.volga o.client⟩
  | cupsonline => exact ⟨_, Cupsonline.carries o.cups o.rooms o.peers⟩

namespace Legacy

/-- A codec that stores what it is given. -/
def storeLz4 : Lz4 := ⟨id, .ok⟩

/-- The default transports, with a room on each side. -/
def sampleConfig : RawConfig where
  docs := ⟨999999, 1024⟩
  volga := .default
  client := Volga.sampleClient
  cups := .default
  n := 1
  rooms _ := Cupsonline.sampleRoom
  peers _ := Cupsonline.sampleRoom

/-- A message of the sample client arrives as its batch. -/
theorem sampleClient_relays (batch : List Bytes) (h : ∀ p ∈ batch, Fits p) :
    ∃ message id, Volga.postedMessage (Volga.sendBatch Volga.sampleClient batch).2 = some message ∧
      Volga.handleRelayMessage [] message = (id, batch) := by
  obtain ⟨message, id, hposted, -, hhandle⟩ :=
    Volga.handleRelayMessage_sendBatch Volga.sampleClient [] batch
  have hdecode : Volga.decodeBatch (frameBatch batch) = batch :=
    (Volga.decodeBatch_frameBatch_iff fun p hp => List.ne_nil_of_length_pos (h p hp).1).mpr
      (.inl fun p hp => (h p hp).2)
  exact ⟨message, id, hposted, hdecode ▸ hhandle⟩

/-- The first worker takes a packet and posts it, and the message is handed over. -/
def relayRun (message : Json) : List (Event (sampleConfig.link .volga)) :=
  [.step (.take (0 : Fin 2000)), .step (.flush (0 : Fin 2000)), .hand message]

/-- The state in which one packet has been queued. -/
def queuedState (accepted : List Bytes) (p : Bytes) : State (sampleConfig.link .volga) where
  sender := { client := Volga.sampleClient, queue := [p] : Volga.Workers Volga.Config.default }
  receiver := ([] : Bytes)
  accepted := accepted

/-- A queued packet is posted, handed over and delivered. -/
theorem run_relayRun (accepted : List Bytes) {p : Bytes} (hp : Fits p) :
    ∃ message s, (system storeLz4 _).run (queuedState accepted p) (relayRun message) = some s ∧
      (system storeLz4 _).Along Honest (queuedState accepted p) (relayRun message) ∧
      (p ≠ [0x00] →
        (system storeLz4 _).Along Regular (queuedState accepted p) (relayRun message)) ∧
      s.accepted = accepted ∧ s.delivered = [receiveCompressed storeLz4 p] := by
  obtain ⟨message, id, hposted, hhandle⟩ := sampleClient_relays [p] (List.forall_mem_singleton.mpr hp)
  let taken : Volga.Workers Volga.Config.default :=
    { client := Volga.sampleClient, batches := Function.update (fun _ => []) (0 : Fin 2000) [p] }
  let posted : Volga.Posted := ⟨Volga.sampleClient, [p]⟩
  let flushed : Volga.Workers Volga.Config.default :=
    { taken with
      client := (Volga.sendBatch Volga.sampleClient [p]).1
      batches := Function.update taken.batches (0 : Fin 2000) [] }
  let s₁ : State (sampleConfig.link .volga) := { queuedState accepted p with sender := taken }
  let s₂ : State (sampleConfig.link .volga) := { s₁ with sender := flushed, written := [posted] }
  let s₃ : State (sampleConfig.link .volga) :=
    { s₂ with receiver := id, delivered := [receiveCompressed storeLz4 p] }
  have htake : (system storeLz4 _).step (queuedState accepted p) (.step (.take (0 : Fin 2000))) =
      some s₁ := rfl
  have hflush : (system storeLz4 _).step s₁ (.step (.flush (0 : Fin 2000))) = some s₂ := rfl
  have hhand : (system storeLz4 _).step s₂ (.hand message) = some s₃ := by
    have hreceive : (sampleConfig.link .volga).receive s₂.receiver message = (id, [p]) := hhandle
    simp only [system, hreceive]
    rfl
  -- both conditions are about what is handed over only
  have halong : ∀ P : State (sampleConfig.link .volga) → Event (sampleConfig.link .volga) → Prop,
      (∀ s e, P s (.step e)) → P s₂ (.hand message) →
      (system storeLz4 _).Along P (queuedState accepted p) (relayRun message) := by
    intro P hP hlast
    refine ⟨hP _ _, fun t ht => ⟨hP _ _, fun u hu => ⟨?_, fun _ _ => trivial⟩⟩⟩
    rw [← Option.some.inj (htake.symm.trans ht)] at hu
    rwa [← Option.some.inj (hflush.symm.trans hu)]
  refine ⟨message, s₃, ?_, ?_, fun hne => ?_, rfl, rfl⟩
  · exact EventSystem.run_cons_eq_some.mpr ⟨_, htake, EventSystem.run_cons_eq_some.mpr
      ⟨_, hflush, EventSystem.run_cons_eq_some.mpr ⟨_, hhand, rfl⟩⟩⟩
  · exact halong Honest (fun _ _ => trivial) ⟨posted, List.mem_singleton_self _, hposted⟩
  · refine halong Regular (fun _ _ => trivial) fun m hm _ q hq hka => hne ?_
    rw [List.mem_singleton.mp hm] at hq
    exact (List.mem_singleton.mp hq).symm.trans (List.mem_singleton.mp hka)

/-- **No packet nobody sent**: with the legacy codec over any of the transports, in every run whose
provider hands over only what was written, what is delivered was accepted and has 1 to 65534 bytes,
as long as the packets given to `Send` do and no message with a keep-alive packet is handed over. -/
theorem delivered_accepted {z : Lz4} (hz : z.Inverts) (o : RawConfig) (t : RawTransport)
    {es : List (Event (o.link t))} {s : State (o.link t)}
    (hhonest : (system z (o.link t)).Along Honest (system z (o.link t)).init es)
    (hreg : (system z (o.link t)).Along Regular (system z (o.link t)).init es)
    (hrun : (system z (o.link t)).run (system z (o.link t)).init es = some s) :
    ∀ p ∈ s.delivered, p ∈ s.accepted ∧ 1 ≤ p.length ∧ p.length ≤ 65534 := by
  obtain ⟨Holds, hL⟩ := exists_carries o t
  exact delivered_of_run hL hz hhonest hreg hrun

/-- The delivery of a packet that is sent on the Volga transport. -/
theorem delivered_accepted_relay : ∃ message s,
    (system storeLz4 _).run (system storeLz4 (sampleConfig.link .volga)).init
      (.send [0x07] :: relayRun message) = some s ∧ s.delivered = [[0x07]] ∧
      ∀ p ∈ s.delivered, p ∈ s.accepted ∧ 1 ≤ p.length ∧ p.length ≤ 65534 := by
  have hp : Fits [0x00, 0x07] := by decide
  obtain ⟨message, s, hrun, hhonest, hreg, -, hdel⟩ := run_relayRun [[0x07]] hp
  have hsend : (system storeLz4 _).step (system storeLz4 (sampleConfig.link .volga)).init
      (.send [0x07]) = some (queuedState [[0x07]] [0x00, 0x07]) := rfl
  have hall := EventSystem.run_cons_eq_some.mpr ⟨_, hsend, hrun⟩
  -- both conditions hold of the `Send`, and then of the rest
  have halong : ∀ P : State (sampleConfig.link .volga) → Event (sampleConfig.link .volga) → Prop,
      P (system storeLz4 _).init (.send [0x07]) →
      (system storeLz4 _).Along P (queuedState [[0x07]] [0x00, 0x07]) (relayRun message) →
      (system storeLz4 _).Along P (system storeLz4 _).init (.send [0x07] :: relayRun message) := by
    intro P hfirst hrest
    refine ⟨hfirst, fun s' hs' => ?_⟩
    rwa [← Option.some.inj (hsend.symm.trans hs')]
  refine ⟨message, s, hall, hdel, ?_⟩
  exact delivered_accepted (fun _ => rfl) sampleConfig .volga (halong Honest trivial hhonest)
    (halong Regular ⟨by decide, by decide⟩ (hreg (by decide))) hall

/-- Nothing is sent, but the keep-alive of the Volga transport is delivered as an empty packet. -/
theorem keepAlive_delivered : ∃ (es : List (Event (sampleConfig.link .volga)))
    (s : State (sampleConfig.link .volga)),
    (system storeLz4 _).run (system storeLz4 _).init es = some s ∧
      (system storeLz4 _).Along Honest (system storeLz4 _).init es ∧
      s.accepted = [] ∧ s.delivered = [[]] := by
  obtain ⟨message, s, hrun, hhonest, -, hacc, hdel⟩ := run_relayRun [] (p := [0x00]) (by decide)
  have hkeep : (system storeLz4 _).step (system storeLz4 (sampleConfig.link .volga)).init
      (.step .keepAlive) = some (queuedState [] [0x00]) := rfl
  refine ⟨.step .keepAlive :: relayRun message, s, ?_, ⟨trivial, ?_⟩, hacc, hdel⟩
  · exact EventSystem.run_cons_eq_some.mpr ⟨_, hkeep, hrun⟩
  · intro s' hs'
    rwa [← Option.some.inj (hkeep.symm.trans hs')]

end Legacy

end OpenFlux.Transport
