import OpenFlux.Control.Equiv.Disk

/-!
# A database that cannot be decoded

`Open` leaves an undecodable file alone and goes on without users; the next save replaces it.
`opens_iff_keeps_iff` says from which files this can happen: those that are there and cannot be
decoded, and for the loss, are not empty.  What a server writes is always decoded again (`Kept`).
-/

namespace OpenFlux.Control

variable {L : Libs} {R : Reader}

/-- A store that is opened has the users that the file encodes. -/
def OpensExactly (R : Reader) (s : Server) : ServerEvent → Prop
  | .start env => ∀ m, (openStore R s.disk env).2 = .ok m →
      s.disk.file = none ∧ m.users = [] ∨
        ∃ data, s.disk.file = some data ∧ decode R data = some m.users
  | _ => True

/-- A file that is not empty stays, or makes way for one that has all its users but those that were
deleted. -/
def KeepsUsers (L : Libs) (R : Reader) (s : Server) (e : ServerEvent) : Prop :=
  ∀ s' data, s.step L R e = some s' → s.disk.file = some data → data ≠ [] →
    s'.disk.file = some data ∨
      ∃ users data' users', decode R data = some users ∧ s'.disk.file = some data' ∧
        decode R data' = some users' ∧ ∀ u ∈ users, u.id ∈ s.deleted ∨ KeptIn u users'

/-- The file is one that `Open` reads. -/
def Decodes (R : Reader) (file : Option Bytes) : Prop :=
  ∀ data, file = some data → ∃ users, decode R data = some users

/-! ### What a step does to the file and to the users in memory -/

/-- The ids that were deleted, after a call. -/
def Op.deletedAfter (op : Op) (deleted : List Bytes) : List Bytes :=
  match op with
  | .delete id => id :: deleted
  | _ => deleted

inductive Change (L : Libs) (R : Reader) (s s' : Server) : Prop
  | none (file : s'.disk.file = s.disk.file) (store : s'.store = s.store)
    (deleted : s'.deleted = s.deleted)
  | opened (file : s'.disk.file = s.disk.file) (m : OpenStore) (store : s'.store = some m)
    (users : m.users = usersIn R s.disk)
  | called (file : s'.disk.file = s.disk.file) (m : OpenStore) (store : s.store = some m) (op : Op)
    (users : List User) (change : m.change L op = .ok users)
    (store' : s'.store = some { m with users }) (deleted : s'.deleted = op.deletedAfter s.deleted)
  | renamed (data : Bytes) (pc : s.pc = .renaming data) (file : s'.disk.file = s.disk.tmp)
    (store : s'.store = s.store) (deleted : s'.deleted = s.deleted)
  | crashed (file : s'.disk.file = s.disk.file) (store : s'.store = Option.none)

section Steps

variable {s s' : Server}

theorem change_start {env : OpenEnv} (hs' : s.start R env = some s') : Change L R s s' := by
  unfold Server.start at hs'
  obtain ⟨hdisk, husers⟩ := openStore_cases R s.disk env
  split at hs'
  · cases hs'
  · split at hs'
    · next disk err hopen =>
      cases hs'
      rw [hopen] at hdisk
      have hfile : disk.file = s.disk.file := by rw [show disk = _ from hdisk]
      exact .none hfile rfl rfl
    · next disk m hopen =>
      cases hs'
      rw [hopen] at hdisk
      have hfile : disk.file = s.disk.file := by rw [show disk = _ from hdisk]
      exact .opened hfile m rfl (husers m (by rw [hopen]))

theorem change_call {op : Op} (hs' : s.call L op = some s') : Change L R s s' := by
  unfold Server.call at hs'
  split at hs'
  · next m hopen hidle =>
    split at hs'
    · cases hs'
      exact .none rfl rfl rfl
    · next users hchange =>
      cases hs'
      refine .called rfl m hopen op users hchange rfl ?_
      cases op <;> rfl
  · cases hs'

theorem change_step {e : ServerEvent} (hs' : s.step L R e = some s') : Change L R s s' := by
  cases e with
  | start env => exact change_start hs'
  | call op => exact change_call hs'
  | create =>
    simp only [Server.step] at hs'
    split at hs'
    · cases hs'
      exact .none rfl rfl rfl
    · cases hs'
  | write k =>
    simp only [Server.step] at hs'
    split at hs'
    · cases hs'
      exact .none rfl rfl rfl
    · cases hs'
  | close =>
    simp only [Server.step] at hs'
    split at hs'
    · split_ifs at hs'
      cases hs'
      exact .none rfl rfl rfl
    · cases hs'
  | rename =>
    simp only [Server.step] at hs'
    split at hs'
    · next data hpc =>
      cases hs'
      exact .renamed data hpc rfl rfl rfl
    · cases hs'
  | succeed =>
    simp only [Server.step] at hs'
    split at hs'
    · cases hs'
      exact .none rfl rfl rfl
    · cases hs'
  | fail =>
    simp only [Server.step] at hs'
    split at hs'
    all_goals cases hs'
    all_goals exact .none rfl rfl rfl
  | crash =>
    cases hs'
    exact .crashed rfl rfl

/-! ### Every run -/

/-- No user is lost on the way from the file to the memory. -/
structure Kept (R : Reader) (s : Server) : Prop where
  decodes : ∀ data, s.disk.file = some data → data ≠ [] → ∃ users, decode R data = some users
  memory : ∀ m, s.store = some m → ∀ u ∈ usersIn R s.disk, u.id ∈ s.deleted ∨ KeptIn u m.users

theorem usersIn_congr {disk disk' : Disk} (h : disk'.file = disk.file) :
    usersIn R disk' = usersIn R disk := by
  rw [usersIn, h, usersIn]

/-- The file that takes the place of the old one has the users in memory. -/
theorem decode_renamed (hL : Lawful L R) (hinv : Inv L R s) {data : Bytes}
    (hpc : s.pc = .renaming data) :
    ∃ m, s.store = some m ∧ s.disk.tmp = some data ∧ decode R data = some m.users := by
  obtain ⟨m, hopen, htext, -⟩ := hinv.saving data (by rw [hpc]; rfl)
  refine ⟨m, hopen, hinv.complete data hpc, ?_⟩
  rw [htext, decode_encode hL (hinv.valid m hopen)]

theorem kept_step (hL : Lawful L R) (hinv : Inv L R s) (h : Kept R s) {e : ServerEvent}
    (hs' : s.step L R e = some s') : Kept R s' := by
  cases change_step hs' with
  | none file store deleted =>
    refine ⟨fun data hdata => h.decodes data (file ▸ hdata), fun m hm => ?_⟩
    rw [usersIn_congr file, deleted]
    exact h.memory m (store ▸ hm)
  | opened file m store users =>
    refine ⟨fun data hdata => h.decodes data (file ▸ hdata), fun m' hm' u hu => .inr ?_⟩
    obtain rfl := Option.some.inj (store.symm.trans hm')
    rw [usersIn_congr file, ← users] at hu
    exact keptIn_of_mem hu
  | called file m store op users change store' deleted =>
    refine ⟨fun data hdata => h.decodes data (file ▸ hdata), fun m' hm' u hu => ?_⟩
    obtain rfl := Option.some.inj (store'.symm.trans hm')
    rw [usersIn_congr file] at hu
    rw [deleted]
    have hmono : ∀ id ∈ s.deleted, id ∈ op.deletedAfter s.deleted := by
      cases op with
      | delete id => exact fun _ hid => List.mem_cons_of_mem _ hid
      | create userAlias trafficCap timeCap profiles random now => exact fun _ hid => hid
      | revoke id now => exact fun _ hid => hid
    rcases h.memory m store u hu with hid | ⟨v, hv, hvu⟩
    · exact .inl (hmono _ hid)
    · rcases kept_change change hv with rfl | hkept
      · have hid : v.id = u.id := by rw [← hvu]
        exact .inl (hid ▸ List.mem_cons_self)
      · exact .inr (KeptIn.trans hvu hkept)
  | renamed data pc file store deleted =>
    obtain ⟨m, hopen, htmp, hdecode⟩ := decode_renamed hL hinv pc
    rw [htmp] at file
    have husers : usersIn R s'.disk = m.users := by
      rw [usersIn, file, Option.bind_some, hdecode, Option.getD_some]
    refine ⟨fun data' hdata' _ => ?_, fun m' hm' u hu => .inr ?_⟩
    · obtain rfl := Option.some.inj (file.symm.trans hdata')
      exact ⟨_, hdecode⟩
    · rw [store, hopen] at hm'
      obtain rfl := Option.some.inj hm'
      exact keptIn_of_mem (husers ▸ hu)
  | crashed file store =>
    refine ⟨fun data hdata => h.decodes data (file ▸ hdata), fun m hm => ?_⟩
    rw [store] at hm
    cases hm

theorem keepsUsers_of_kept (hL : Lawful L R) (hinv : Inv L R s) (h : Kept R s) (e : ServerEvent) :
    KeepsUsers L R s e := by
  intro s' data hs' hdata hne
  cases change_step hs' with
  | none file store deleted => exact .inl (file.trans hdata)
  | opened file m store users => exact .inl (file.trans hdata)
  | called file m store op users change store' deleted => exact .inl (file.trans hdata)
  | crashed file store => exact .inl (file.trans hdata)
  | renamed data' pc file store deleted =>
    obtain ⟨m, hopen, htmp, hdecode⟩ := decode_renamed hL hinv pc
    obtain ⟨users, husers⟩ := h.decodes data hdata hne
    refine .inr ⟨users, data', m.users, husers, file.trans htmp, hdecode, fun u hu => ?_⟩
    refine h.memory m hopen u ?_
    rw [usersIn, hdata, Option.bind_some, husers]
    exact hu

end Steps

theorem inv_kept_of_reachable (hL : Lawful L R) {disk : Disk}
    (hdisk : ∀ data, disk.file = some data → data ≠ [] → ∃ users, decode R data = some users)
    {s : Server} (hs : (server L R disk).Reachable s) : Inv L R s ∧ Kept R s := by
  refine EventSystem.Reachable.invariant (I := fun s => Inv L R s ∧ Kept R s) ?_ ?_ hs
  · exact ⟨inv_init L R disk, hdisk, nofun⟩
  · exact fun s e s' h hs' => ⟨inv_step hL h.1 hs', kept_step hL h.1 h.2 hs'⟩

/-- Once a file can be decoded, it always can. -/
theorem decodes_of_reachable (hL : Lawful L R) {disk : Disk} (hdisk : Decodes R disk.file)
    {s : Server} (hs : (server L R disk).Reachable s) : Decodes R s.disk.file := by
  refine And.right (EventSystem.Reachable.invariant
    (I := fun s => Inv L R s ∧ Decodes R s.disk.file) ⟨inv_init L R disk, hdisk⟩ ?_ hs)
  rintro s e s' ⟨hinv, h⟩ hs'
  refine ⟨inv_step hL hinv hs', ?_⟩
  cases change_step hs' with
  | none file store deleted => exact file ▸ h
  | opened file m store users => exact file ▸ h
  | called file m store op users change store' deleted => exact file ▸ h
  | crashed file store => exact file ▸ h
  | renamed data pc file store deleted =>
    obtain ⟨m, -, htmp, hdecode⟩ := decode_renamed hL hinv pc
    intro data' hdata'
    obtain rfl := Option.some.inj ((file.trans htmp).symm.trans hdata')
    exact ⟨_, hdecode⟩

theorem opensExactly_of_decodes {s : Server} (h : Decodes R s.disk.file) (e : ServerEvent) :
    OpensExactly R s e := by
  cases e with
  | start env =>
    intro m hm
    have husers := (openStore_cases R s.disk env).2 m hm
    rw [usersIn] at husers
    cases hfile : s.disk.file with
    | none =>
      rw [hfile] at husers
      exact .inl ⟨rfl, husers⟩
    | some data =>
      obtain ⟨users, hdecode⟩ := h data hfile
      rw [hfile, Option.bind_some, hdecode] at husers
      exact .inr ⟨data, rfl, husers ▸ hdecode⟩
  | _ => trivial

/-- Nothing fails, and the random bytes are zero. -/
def quietEnv : OpenEnv where
  secret := { random := .ok ⟨List.replicate 32 0, rfl⟩ }

theorem openStore_quiet (R : Reader) (disk : Disk) :
    ∃ m, (openStore R disk quietEnv).2 = .ok m := by
  have hsecret : ∃ secret, (loadSecret disk.secretFile quietEnv.secret).2 = .ok secret := by
    unfold loadSecret
    split
    · split_ifs
      · exact ⟨_, rfl⟩
      · exact ⟨_, rfl⟩
    · exact ⟨_, rfl⟩
  obtain ⟨secret, hsecret⟩ := hsecret
  exact openStore_ok R hsecret rfl

/-- A start, and then a user that is saved, up to the rename. -/
theorem exists_run_rename (hL : Lawful L R) (disk : Disk) :
    ∃ es s users, (server L R disk).run (server L R disk).init es = some s ∧
      s.disk.file = disk.file ∧ s.disk.tmp = some (encode L users) ∧
      s.pc = .renaming (encode L users) ∧ decode R (encode L users) = some users := by
  obtain ⟨m, hm⟩ := openStore_quiet R disk
  have hdisk := (openStore_cases R disk quietEnv).1
  obtain ⟨disk', hopen⟩ : ∃ disk', openStore R disk quietEnv = (disk', .ok m) :=
    ⟨_, Prod.ext rfl hm⟩
  rw [hopen] at hdisk
  have hstart : (server L R disk).step (server L R disk).init (.start quietEnv) = some {
      disk := disk'
      store := some m
      completed := m.users } := by
    simp only [server, Server.step, Server.start, hopen]
  let op : Op := .create ⟨[], rfl⟩ 0 0 none (.ok []) ⟨.zero, Time.valid_zero⟩
  obtain ⟨users, hchange⟩ : ∃ users, m.change L op = .ok users := ⟨_, rfl⟩
  obtain ⟨deleted, hwrite⟩ :=
    @run_write L R disk { disk := disk', store := some m, completed := m.users } m rfl rfl op users
      hchange
  have hvalid := valid_change hchange
    ((inv_of_reachable hL (EventSystem.Reachable.init.step hstart)).valid m rfl)
  refine ⟨_, _, users, EventSystem.run_cons_eq_some.mpr ⟨_, hstart, hwrite⟩, ?_, rfl, rfl,
    decode_encode hL hvalid⟩
  show disk'.file = disk.file
  rw [show disk' = _ from hdisk]

/-- A store is opened on a file that cannot be decoded. -/
theorem not_opensExactly {disk : Disk} {data : Bytes} (hdata : disk.file = some data)
    (hdecode : decode R data = none) :
    ¬ OpensExactly R { disk, completed := usersIn R disk } (.start quietEnv) := by
  intro h
  obtain ⟨m, hm⟩ := openStore_quiet R disk
  rcases h m hm with ⟨hnone, -⟩ | ⟨data', hdata', hsome⟩
  · cases hdata.symm.trans hnone
  · obtain rfl := Option.some.inj (hdata.symm.trans hdata')
    cases hdecode.symm.trans hsome

/-- Such a file is replaced. -/
theorem not_keepsUsers (hL : Lawful L R) {disk : Disk} {data : Bytes}
    (hdata : disk.file = some data) (hne : data ≠ []) (hdecode : decode R data = none) :
    ∃ es, ¬ (server L R disk).Along (KeepsUsers L R) (server L R disk).init es := by
  obtain ⟨es, s, users, hrun, hfile, htmp, hpc, hsome⟩ := exists_run_rename hL disk
  refine ⟨es ++ [.rename], fun h => ?_⟩
  have hkeeps := ((EventSystem.along_append.mp h).2 s hrun).1
  have hstep : s.step L R .rename = some { s with
      disk := { s.disk with file := s.disk.tmp, tmp := none }
      pc := .returning } := by
    simp only [Server.step, hpc]
  rcases hkeeps _ data hstep (hfile.trans hdata) hne with hsame | ⟨users', -, -, h', -⟩
  · obtain rfl := Option.some.inj (htmp.symm.trans hsame)
    cases hdecode.symm.trans hsome
  · cases hdecode.symm.trans h'

/-- **A database that cannot be decoded**: every store that is opened has the users of the file
exactly if the file, when it is there, can be decoded; and no file that is not empty is replaced by
one that lost users exactly if it is empty or can be decoded. -/
theorem opens_iff_keeps_iff (hL : Lawful L R) (disk : Disk) :
    ((∀ es, (server L R disk).Along (OpensExactly R) (server L R disk).init es) ↔
      ∀ data, disk.file = some data → ∃ users, decode R data = some users) ∧
    ((∀ es, (server L R disk).Along (KeepsUsers L R) (server L R disk).init es) ↔
      ∀ data, disk.file = some data → data ≠ [] → ∃ users, decode R data = some users) := by
  constructor
  · constructor
    · intro h data hdata
      by_contra hnone
      exact not_opensExactly hdata (Option.eq_none_iff_forall_not_mem.mpr (not_exists.mp hnone))
        (h [.start quietEnv]).1
    · intro h es
      refine EventSystem.Reachable.along ?_ es
      exact fun s e hs => opensExactly_of_decodes (decodes_of_reachable hL h hs) e
  · constructor
    · intro h data hdata hne
      by_contra hnone
      obtain ⟨es, hlost⟩ := not_keepsUsers hL hdata hne
        (Option.eq_none_iff_forall_not_mem.mpr (not_exists.mp hnone))
      exact hlost (h es)
    · intro h es
      refine EventSystem.Reachable.along ?_ es
      intro s e hs
      obtain ⟨hinv, hkept⟩ := inv_kept_of_reachable hL h hs
      exact keepsUsers_of_kept hL hinv hkept e

/-- The file was cut off after its first byte. -/
def truncatedDisk : Disk where
  file := some [0x7B]

theorem opens_iff_keeps_truncated :
    ((∀ es, (server plainLibs plainReader truncatedDisk).Along (OpensExactly plainReader)
        (server plainLibs plainReader truncatedDisk).init es) ↔
      ∀ data, truncatedDisk.file = some data → ∃ users, decode plainReader data = some users) ∧
    ((∀ es, (server plainLibs plainReader truncatedDisk).Along (KeepsUsers plainLibs plainReader)
        (server plainLibs plainReader truncatedDisk).init es) ↔
      ∀ data, truncatedDisk.file = some data → data ≠ [] →
        ∃ users, decode plainReader data = some users) :=
  opens_iff_keeps_iff plain_lawful truncatedDisk

/-- The store is opened as if there were no users, and with the next one the file is replaced. -/
theorem truncated_lost :
    (∃ es, ¬ (server plainLibs plainReader truncatedDisk).Along (OpensExactly plainReader)
      (server plainLibs plainReader truncatedDisk).init es) ∧
    ∃ es, ¬ (server plainLibs plainReader truncatedDisk).Along (KeepsUsers plainLibs plainReader)
      (server plainLibs plainReader truncatedDisk).init es := by
  have hdecode : decode plainReader [0x7B] = none := rfl
  exact ⟨⟨[.start quietEnv], fun h => not_opensExactly rfl hdecode h.1⟩,
    not_keepsUsers plain_lawful rfl (by decide) hdecode⟩

end OpenFlux.Control
