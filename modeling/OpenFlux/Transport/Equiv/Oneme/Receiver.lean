import OpenFlux.Algorithm.Threads
import OpenFlux.Transport.Equiv.Oneme.CallHandler
import OpenFlux.Transport.Oneme.Receiver

/-!
# Which calls the receiver accepts

`acceptSent` is set by the first call that is accepted and never reset, where the caller resets it
for every connection.  `accepted_once` says that a call is accepted on its connection, if the flag
is not left over from another one when its goroutine wakes up (`Fresh`).
-/

namespace OpenFlux.Transport.Oneme.Receiver

variable {F PC DC : Type} {s s' : Receiver F PC DC} {c : ℕ} {call call' : Call}

/-- The accept-call command is on the connection of the call, or about to be written. -/
def Accepting (s : Receiver F PC DC) (c : ℕ) : Prop :=
  (∃ w ∈ s.accepts, w.1 = c) ∨ ∃ call ∈ s.calls, call.pc = .writing

/-- What a goroutine must not meet: an `acceptSent` of an earlier connection, or, when it sets it,
one that another has just set. -/
def FreshFor (s : Receiver F PC DC) (c : ℕ) (call : Call) : Prop :=
  match call.pc with
  | .sleeping => s.h.conn = some c → s.h.acceptSent = true → Accepting s c
  | .entering => call.due = true → s.h.acceptSent = true → Accepting s c
  | .setting => s.h.acceptSent = false
  | _ => True

/-- The flag is not left over, and a new connection does not come while a goroutine is about to
accept the current call. -/
def Fresh (s : Receiver F PC DC) : Event F PC DC → Prop
  | .accept c => ∀ call ∈ s.calls[c]?, FreshFor s c call
  | .packet opcode (.ok _) true => opcode = 137 → ∀ call ∈ s.calls, call.pc ≠ .writing ∧
      (call.due = true → call.pc ≠ .entering ∧ call.pc ≠ .setting)
  | _ => True

instance (s : Receiver F PC DC) (c : ℕ) : Decidable (Accepting s c) :=
  inferInstanceAs (Decidable (_ ∨ _))

instance (s : Receiver F PC DC) (c : ℕ) : ∀ call, Decidable (FreshFor s c call)
  | ⟨.sleeping, _⟩ => inferInstanceAs (Decidable (_ → _))
  | ⟨.entering, _⟩ => inferInstanceAs (Decidable (_ → _))
  | ⟨.setting, _⟩ => inferInstanceAs (Decidable (_ = _))
  | ⟨.writing, _⟩ => .isTrue trivial
  | ⟨.done, _⟩ => .isTrue trivial

instance (s : Receiver F PC DC) : ∀ e, Decidable (Fresh s e)
  | .accept c => inferInstanceAs (Decidable (∀ call ∈ s.calls[c]?, FreshFor s c call))
  | .packet _ (.ok _) true => inferInstanceAs (Decidable (_ → _))
  | .packet _ (.ok _) false => .isTrue trivial
  | .packet _ (.error _) _ => .isTrue trivial
  | .disconnect _ => .isTrue trivial
  | .other _ => .isTrue trivial

/-- How many goroutines are about to write. -/
def writers (calls : List Call) : ℕ := calls.countP (·.pc = .writing)

structure Inv (s : Receiver F PC DC) : Prop where
  once : s.accepts.length + writers s.calls = if s.h.acceptSent then 1 else 0
  conn : ∀ call ∈ s.calls, s.h.conn ≠ none
  current : ∀ c call, s.calls[c]? = some call → call.due = true → call.pc ≠ .sleeping →
    call.pc ≠ .done → s.h.conn = some c
  finished : ∀ c call, s.calls[c]? = some call → call.due = true → call.pc = .done →
    (∃ w ∈ s.accepts, w.1 = c) ∨ s.h.conn = some c ∧ 0 < writers s.calls

theorem writers_pos_iff {calls : List Call} :
    0 < writers calls ↔ ∃ call ∈ calls, call.pc = .writing := by
  simp [writers, List.countP_pos_iff]

/-! ### A goroutine moves -/

/-- Who was about to write before a goroutine moved, and who is after it. -/
theorem writers_set {calls : List Call} (hcall : calls[c]? = some call) (call' : Call) :
    writers (calls.set c call') + (if call.pc = .writing then 1 else 0) =
      writers calls + if call'.pc = .writing then 1 else 0 := by
  obtain ⟨hlt, rfl⟩ := List.getElem?_eq_some_iff.mp hcall
  rw [writers, List.countP_set hlt]
  simp only [decide_eq_true_eq]
  split
  · next hpc =>
    have hpos : 0 < writers calls := writers_pos_iff.mpr ⟨_, List.getElem_mem hlt, hpc⟩
    rw [writers] at hpos ⊢
    omega
  · rfl

theorem inv_init : Inv (receiver F PC DC).init :=
  ⟨rfl, nofun, nofun, nofun⟩

/-- A goroutine moves that neither was nor is about to write. -/
theorem Inv.move (h : Inv s) (hcall : s.calls[c]? = some call) (hpc : call.pc ≠ .writing)
    (hpc' : call'.pc ≠ .writing)
    (hcurrent : call'.due = true → call'.pc ≠ .sleeping → call'.pc ≠ .done → s.h.conn = some c)
    (hfinished : call'.due = true → call'.pc = .done →
      (∃ w ∈ s.accepts, w.1 = c) ∨ s.h.conn = some c ∧ 0 < writers s.calls) :
    Inv { s with calls := s.calls.set c call' } := by
  have hwriters : writers (s.calls.set c call') = writers s.calls := by
    have hcount := writers_set hcall call'
    rwa [if_neg hpc, if_neg hpc'] at hcount
  constructor
  · show _ + writers (s.calls.set c call') = _
    rw [hwriters]
    exact h.once
  · exact fun _ _ => h.conn call (List.mem_of_getElem? hcall)
  · intro c' call₁ hcall₁ hdue hsleeping hdone
    rcases getElem?_set_cases hcall₁ with ⟨rfl, rfl⟩ | ⟨-, hcall₁⟩
    · exact hcurrent hdue hsleeping hdone
    · exact h.current c' call₁ hcall₁ hdue hsleeping hdone
  · intro c' call₁ hcall₁ hdue hdone
    show _ ∨ _ ∧ 0 < writers (s.calls.set c call')
    rw [hwriters]
    rcases getElem?_set_cases hcall₁ with ⟨rfl, rfl⟩ | ⟨-, hcall₁⟩
    · exact hfinished hdue hdone
    · exact h.finished c' call₁ hcall₁ hdue hdone

/-- The goroutine that sets the flag finds it unset. -/
theorem Inv.set (h : Inv s) (hcall : s.calls[c]? = some call) (hpc : call.pc = .setting)
    (hunset : s.h.acceptSent = false) :
    Inv { s with
      h := { s.h with acceptSent := true }
      calls := s.calls.set c { call with pc := .writing } } := by
  have honce := h.once
  rw [hunset, if_neg Bool.false_ne_true, Nat.add_eq_zero_iff] at honce
  obtain ⟨haccepts, hwriters⟩ := honce
  have hnone : ¬ ∃ w ∈ s.accepts, w.1 = c := by
    rw [List.length_eq_zero_iff.mp haccepts]
    rintro ⟨w, hw, -⟩
    exact absurd hw List.not_mem_nil
  constructor
  · have hcount := writers_set hcall { call with pc := .writing }
    rw [hpc, if_neg nofun, if_pos rfl, hwriters] at hcount
    show s.accepts.length + writers (s.calls.set c _) = 1
    omega
  · exact fun _ _ => h.conn call (List.mem_of_getElem? hcall)
  · intro c' call₁ hcall₁ hdue hsleeping hdone
    rcases getElem?_set_cases hcall₁ with ⟨rfl, rfl⟩ | ⟨-, hcall₁⟩
    · exact h.current c' call hcall hdue (by rw [hpc]; nofun) (by rw [hpc]; nofun)
    · exact h.current c' call₁ hcall₁ hdue hsleeping hdone
  · intro c' call₁ hcall₁ hdue hdone
    rcases getElem?_set_cases hcall₁ with ⟨rfl, rfl⟩ | ⟨-, hcall₁⟩
    · cases hdone
    · rcases h.finished c' call₁ hcall₁ hdue hdone with hwritten | ⟨-, hpos⟩
      · exact .inl hwritten
      · exact absurd hwriters hpos.ne'

/-- The command is written on the current connection. -/
theorem Inv.write (h : Inv s) (hcall : s.calls[c]? = some call) (hpc : call.pc = .writing) :
    Inv { h := s.h.writeAccept.1
          calls := s.calls.set c { call with pc := .done }
          accepts := s.accepts ++ s.h.writeAccept.2.toList } := by
  have hpos : 0 < writers s.calls :=
    writers_pos_iff.mpr ⟨call, List.mem_of_getElem? hcall, hpc⟩
  have hset : s.h.acceptSent = true := by
    by_contra hunset
    have honce := h.once
    rw [if_neg hunset] at honce
    omega
  have honce := h.once
  rw [if_pos hset] at honce
  have haccepts : s.accepts = [] := List.length_eq_zero_iff.mp (by omega)
  obtain ⟨conn, hconn⟩ := Option.ne_none_iff_exists'.mp
    (h.conn call (List.mem_of_getElem? hcall))
  have hwrite : s.h.writeAccept =
      ({ s.h with seq := s.h.seq + 1 }, some (conn, CallHandler.acceptCommand s.h.seq)) := by
    simp only [CallHandler.writeAccept, hconn]
  rw [hwrite, haccepts]
  constructor
  · have hcount := writers_set hcall { call with pc := .done }
    rw [if_pos hpc, if_neg nofun] at hcount
    rw [haccepts, List.length_nil] at honce
    show 1 + writers (s.calls.set c _) = if s.h.acceptSent then 1 else 0
    rw [if_pos hset]
    omega
  · exact fun _ _ => h.conn call (List.mem_of_getElem? hcall)
  · intro c' call₁ hcall₁ hdue hsleeping hdone
    rcases getElem?_set_cases hcall₁ with ⟨rfl, rfl⟩ | ⟨-, hcall₁⟩
    · exact absurd rfl hdone
    · exact h.current c' call₁ hcall₁ hdue hsleeping hdone
  · intro c' call₁ hcall₁ hdue hdone
    have hcurrent : s.h.conn = some c' := by
      rcases getElem?_set_cases hcall₁ with ⟨rfl, rfl⟩ | ⟨-, hcall₁⟩
      · exact h.current c' call hcall hdue (by rw [hpc]; nofun) (by rw [hpc]; nofun)
      · rcases h.finished c' call₁ hcall₁ hdue hdone with ⟨w, hw, -⟩ | ⟨hcurrent, -⟩
        · rw [haccepts] at hw
          exact absurd hw List.not_mem_nil
        · exact hcurrent
    obtain rfl := Option.some.inj (hconn.symm.trans hcurrent)
    exact .inl ⟨_, List.mem_singleton_self _, rfl⟩

/-- A connection becomes the current one while no goroutine is about to accept the one before. -/
theorem Inv.dial (h : Inv s) (hidle : ∀ call ∈ s.calls, call.pc ≠ .writing ∧
      (call.due = true → call.pc ≠ .entering ∧ call.pc ≠ .setting)) :
    Inv { s with h := { s.h with conn := some s.calls.length }, calls := s.calls ++ [{}] } := by
  have hold {c : ℕ} {call : Call} (hcall : (s.calls ++ [({} : Call)])[c]? = some call)
      (hdue : call.due = true) : s.calls[c]? = some call := by
    rcases Nat.lt_or_ge c s.calls.length with hlt | hge
    · rwa [List.getElem?_append_left hlt] at hcall
    · rw [List.getElem?_append_right hge] at hcall
      obtain rfl := List.mem_singleton.mp (List.mem_of_getElem? hcall)
      cases hdue
  constructor
  · have hwriters : writers (s.calls ++ [({} : Call)]) = writers s.calls :=
      List.countP_append
    show _ + writers (s.calls ++ [({} : Call)]) = _
    rw [hwriters]
    exact h.once
  · exact fun _ _ => nofun
  · intro c call hcall hdue hsleeping hdone
    obtain ⟨hwriting, hpcs⟩ := hidle call (List.mem_of_getElem? (hold hcall hdue))
    obtain ⟨hentering, hsetting⟩ := hpcs hdue
    cases hpc : call.pc <;> contradiction
  · intro c call hcall hdue hdone
    rcases h.finished c call (hold hcall hdue) hdue hdone with hwritten | ⟨-, hpos⟩
    · exact .inl hwritten
    · obtain ⟨call', hcall', hwriting⟩ := writers_pos_iff.mp hpos
      exact absurd hwriting (hidle call' hcall').1

/-! ### Every step -/

theorem finished_of_accepting (h : Accepting s c) (hconn : s.h.conn = some c) :
    (∃ w ∈ s.accepts, w.1 = c) ∨ s.h.conn = some c ∧ 0 < writers s.calls :=
  h.imp_right fun hwriting => ⟨hconn, writers_pos_iff.mpr hwriting⟩

theorem inv_accept (h : Inv s) (hfresh : Fresh s (.accept c)) (hs' : s.accept c = some s') :
    Inv s' := by
  unfold accept at hs'
  cases hcall : s.calls[c]? with
  | none =>
    rw [hcall] at hs'
    cases hs'
  | some call =>
    rw [hcall] at hs'
    replace hfresh := hfresh call hcall
    obtain ⟨pc, due⟩ := call
    cases pc with
    | sleeping =>
      cases hs'
      apply h.move hcall nofun
      · dsimp only
        split <;> nofun
      · exact fun hdue _ _ => of_decide_eq_true hdue
      · intro hdue hdone
        have hconn : s.h.conn = some c := of_decide_eq_true hdue
        have hset : s.h.acceptSent = true := by
          by_contra hunset
          rw [if_neg hunset] at hdone
          cases hdone
        exact finished_of_accepting (hfresh hconn hset) hconn
    | entering =>
      cases hs'
      apply h.move hcall nofun
      · dsimp only
        split <;> nofun
      · exact fun hdue _ _ => h.current c _ hcall hdue nofun nofun
      · intro hdue hdone
        have hset : s.h.acceptSent = true := by
          by_contra hunset
          rw [if_neg hunset] at hdone
          cases hdone
        exact finished_of_accepting (hfresh hdue hset) (h.current c _ hcall hdue nofun nofun)
    | setting =>
      cases hs'
      exact h.set hcall rfl hfresh
    | writing =>
      cases hs'
      exact h.write hcall rfl
    | done => cases hs'

theorem inv_onEvent (h : Inv s) {opcode : ℤ} {callDetails : Except Bytes Bytes} {dialled : Bool}
    (hfresh : Fresh s (.packet opcode callDetails dialled)) :
    Inv (s.onEvent opcode callDetails dialled) := by
  unfold onEvent
  by_cases hopcode : opcode = 137
  · rw [if_pos hopcode]
    cases callDetails with
    | error err => exact h
    | ok details =>
      cases dialled with
      | false => exact h
      | true => exact h.dial (hfresh hopcode)
  · rw [if_neg hopcode]
    exact h

theorem inv_step {e : Event F PC DC} (h : Inv s) (hfresh : Fresh s e)
    (hs' : (receiver F PC DC).step s e = some s') : Inv s' := by
  cases e with
  | packet opcode callDetails dialled =>
    cases hs'
    exact inv_onEvent h hfresh
  | disconnect conn =>
    cases hs'
    exact h
  | accept c => exact inv_accept h hfresh hs'
  | other handler =>
    obtain ⟨⟨hconn, hset⟩, hs'⟩ := Option.ite_none_right_eq_some.mp hs'
    cases hs'
    exact ⟨by rw [hset]; exact h.once, by rw [hconn]; exact h.conn, by rw [hconn]; exact h.current,
      by rw [hconn]; exact h.finished⟩

/-- **A call is accepted once on its own connection**, in every run in which no step meets an
`acceptSent` that is left over. -/
theorem accepted_once {es : List (Event F PC DC)}
    (hrun : (receiver F PC DC).run (receiver F PC DC).init es = some s)
    (hfresh : (receiver F PC DC).Along Fresh (receiver F PC DC).init es)
    (hcall : s.calls[c]? = some call) (hdue : call.due = true) (hdone : call.pc = .done)
    (hidle : ∀ call ∈ s.calls, call.pc ≠ .writing) :
    s.accepts.countP (fun w => w.1 = c) = 1 := by
  have hinv : Inv s := EventSystem.run_invariant (fun _ _ _ h hfresh hs' => inv_step h hfresh hs')
    inv_init hfresh hrun
  have hwriters : ¬ 0 < writers s.calls := by
    rw [writers_pos_iff]
    rintro ⟨call', hcall', hwriting⟩
    exact hidle call' hcall' hwriting
  obtain ⟨w, hw, hwc⟩ := (hinv.finished c call hcall hdue hdone).resolve_right fun h =>
    hwriters h.2
  have hlength : s.accepts.length = 1 := by
    have hpos : 0 < s.accepts.length := List.length_pos_of_mem hw
    have honce := hinv.once
    split at honce <;> omega
  obtain ⟨w', hw'⟩ := List.length_eq_one_iff.mp hlength
  rw [hw', List.mem_singleton] at hw
  rw [hw', List.countP_singleton, ← hw, if_pos (decide_eq_true hwc)]

/-- An incoming call whose goroutine is not interrupted. -/
def firstCall : List (Event ℤ Unit Unit) :=
  [.packet 137 (.ok []) true, .accept 0, .accept 0, .accept 0, .accept 0]

theorem accepted_firstCall : ∃ s, (receiver ℤ Unit Unit).run (receiver ℤ Unit Unit).init firstCall =
    some s ∧ s.accepts.countP (fun w => w.1 = 0) = 1 := by
  obtain ⟨s, hs⟩ : ∃ s, (receiver ℤ Unit Unit).run (receiver ℤ Unit Unit).init firstCall = some s :=
    ⟨_, rfl⟩
  have hcalls : s.calls = [⟨.done, true⟩] := by
    cases hs
    rfl
  have hcall : s.calls[0]? = some ⟨.done, true⟩ := by
    rw [hcalls]
    rfl
  refine ⟨s, hs, accepted_once hs (by decide +kernel) hcall rfl rfl ?_⟩
  rw [hcalls]
  decide

/-- The caller reconnects: its second call is not accepted. -/
theorem not_accepted_secondCall : ∃ s,
    (receiver ℤ Unit Unit).run (receiver ℤ Unit Unit).init
        (firstCall ++ [.disconnect 0, .packet 137 (.ok []) true, .accept 1]) = some s ∧
      s.h.conn = some 1 ∧ s.calls = [⟨.done, true⟩, ⟨.done, true⟩] ∧
      s.accepts.countP (fun w => w.1 = 1) = 0 :=
  ⟨_, rfl, rfl, rfl, by decide +kernel⟩

/-! ### `sendAcceptCall` and the other goroutines -/

/-- Without interruption, the steps of a goroutine are those of `sendAcceptCall`. -/
theorem run_accept (hcall : s.calls[c]? = some {}) (hunset : s.h.acceptSent = false) :
    (receiver F PC DC).run s (List.replicate 4 (.accept c)) = some {
      h := s.h.sendAcceptCall.1
      calls := s.calls.set c ⟨.done, s.h.conn = some c⟩
      accepts := s.accepts ++ s.h.sendAcceptCall.2.toList } := by
  have hset (call : Call) : (s.calls.set c call)[c]? = some call :=
    List.getElem?_set_self (List.getElem?_eq_some_iff.mp hcall).1
  have hstep₁ : s.accept c = some { s with
      calls := s.calls.set c ⟨.entering, s.h.conn = some c⟩ } := by
    simp [accept, hcall, hunset]
  have hstep₂ : { s with calls := s.calls.set c ⟨.entering, s.h.conn = some c⟩ }.accept c =
      some { s with calls := s.calls.set c ⟨.setting, s.h.conn = some c⟩ } := by
    simp [accept, hset, hunset]
  have hstep₃ : { s with calls := s.calls.set c ⟨.setting, s.h.conn = some c⟩ }.accept c =
      some { s with
        h := { s.h with acceptSent := true }
        calls := s.calls.set c ⟨.writing, s.h.conn = some c⟩ } := by
    simp [accept, hset]
  have hstep₄ : { s with
        h := { s.h with acceptSent := true }
        calls := s.calls.set c ⟨.writing, s.h.conn = some c⟩ }.accept c = some {
      h := s.h.sendAcceptCall.1
      calls := s.calls.set c ⟨.done, s.h.conn = some c⟩
      accepts := s.accepts ++ s.h.sendAcceptCall.2.toList } := by
    simp [accept, hset, CallHandler.sendAcceptCall, hunset]
  show (s.accept c).bind _ = _
  rw [hstep₁]
  show (Receiver.accept _ c).bind _ = _
  rw [hstep₂]
  show (Receiver.accept _ c).bind _ = _
  rw [hstep₃]
  show (Receiver.accept _ c).bind _ = _
  rw [hstep₄]
  rfl

/-- What the receiver's own goroutines do not change in the handler. -/
def Keeps (h h' : CallHandler F PC DC) : Prop :=
  h'.conn = h.conn ∧ h'.acceptSent = h.acceptSent

variable {role : Role} {lib : Library F PC DC} {h h' h'' : CallHandler F PC DC}

theorem Keeps.trans (hh' : Keeps h h') (hh'' : Keeps h' h'') : Keeps h h'' :=
  ⟨hh''.1.trans hh'.1, hh''.2.trans hh'.2⟩

theorem keeps_after {m : Meanwhile F PC DC role} (hm : ∀ h, Keeps h (m.others h))
    (h : CallHandler F PC DC) : Keeps h (m.after h) := hm h

theorem keeps_findLocalID {creator : Bool} {data : GoMap F}
    (hh' : h.findLocalID lib creator data = some h') : Keeps h h' := by
  obtain ⟨id, rfl⟩ := CallHandler.findLocalID_eq_some hh'
  exact ⟨rfl, rfl⟩

theorem keeps_createPeerConnection {cp : GoMap F}
    (hh' : h.createPeerConnection lib cp = some h') : Keeps h h' := by
  obtain ⟨server, -, hh'⟩ := Option.bind_eq_some_iff.mp hh'
  split at hh'
  · cases hh'
    exact ⟨rfl, rfl⟩
  · split at hh' <;> cases hh' <;> exact ⟨rfl, rfl⟩

theorem keeps_sendSDP (h : CallHandler F PC DC) : Keeps h h.sendSDP := by
  unfold CallHandler.sendSDP
  split <;> exact ⟨rfl, rfl⟩

theorem keeps_flushPendingCandidates (lib : Library F PC DC) (h : CallHandler F PC DC) :
    Keeps h (h.flushPendingCandidates lib) := by
  have hfold : ∀ (cs : List (GoMap F)) (h : CallHandler F PC DC),
      Keeps h (cs.foldl (CallHandler.addICECandidate lib) h) := by
    intro cs
    induction cs with
    | nil => exact fun _ => ⟨rfl, rfl⟩
    | cons c cs ih => exact fun h => ih (h.addICECandidate lib c)
  exact hfold h.pendingCandidates h

theorem keeps_handleSDP {pauses : Pauses F PC DC role} {sdpType sdpStr : Bytes}
    (hsettling : ∀ h, Keeps h (pauses.settling.others h))
    (hh' : h.handleSDP lib pauses sdpType sdpStr = some h') : Keeps h h' := by
  unfold CallHandler.handleSDP at hh'
  split at hh'
  · cases hh'
    exact ⟨rfl, rfl⟩
  · split at hh'
    · split at hh'
      · cases hh'
        exact ⟨rfl, rfl⟩
      · next pc _ =>
        dsimp only at hh'
        obtain ⟨pc', -, hh'⟩ := Option.bind_eq_some_iff.mp hh'
        have hsettled : Keeps h (pauses.settling.after { h with pc := some pc }) :=
          keeps_after hsettling _
        have hflushed : Keeps h ({ pauses.settling.after { h with pc := some pc } with
            hasRemoteDesc := true }.flushPendingCandidates lib) :=
          hsettled.trans (keeps_flushPendingCandidates lib _)
        split at hh' <;> cases hh'
        · exact hflushed
        · exact hflushed.trans (keeps_sendSDP _)
    · split at hh'
      · split at hh' <;> cases hh'
        · exact ⟨rfl, rfl⟩
        · exact keeps_flushPendingCandidates lib { h with pc := _, hasRemoteDesc := true }
      · cases hh'
        exact ⟨rfl, rfl⟩

theorem keeps_candidate {c : GoMap F} {out : Option Bytes}
    (hh' : h.candidate lib c = some (h', out)) : Keeps h h' := by
  have hinjection : useICEInjection = true := rfl
  rw [CallHandler.candidate, if_pos hinjection] at hh'
  dsimp only at hh'
  split at hh' <;> cases hh'
  exact ⟨rfl, rfl⟩

/-- A message handler leaves alone what the receiver's own goroutines use. -/
theorem keeps_incomingHandler {pauses : Pauses F PC DC .receiver} {data : GoMap F}
    {out : Option Bytes} (hsettling : ∀ h, Keeps h (pauses.settling.others h))
    (hh' : h.incomingHandler lib pauses data = some (h', out)) : Keeps h h' := by
  rw [CallHandler.incomingHandler] at hh'
  obtain ⟨h₁, hh₁, hh'⟩ := Option.bind_eq_some_iff.mp hh'
  have hfound := keeps_findLocalID hh₁
  split at hh'
  · obtain ⟨h₂, hh₂, hh'⟩ := Option.bind_eq_some_iff.mp hh'
    cases hh'
    exact hfound.trans (keeps_createPeerConnection hh₂)
  · split at hh'
    · cases hh'
      exact hfound
    · split at hh'
      · obtain ⟨sdpType, -, hh'⟩ := Option.bind_eq_some_iff.mp hh'
        obtain ⟨sdpStr, -, hh'⟩ := Option.bind_eq_some_iff.mp hh'
        obtain ⟨h₂, hh₂, hh'⟩ := Option.bind_eq_some_iff.mp hh'
        cases hh'
        exact hfound.trans (keeps_handleSDP hsettling hh₂)
      · split at hh'
        · exact hfound.trans (keeps_candidate hh')
        · cases hh'
          exact hfound

end OpenFlux.Transport.Oneme.Receiver
