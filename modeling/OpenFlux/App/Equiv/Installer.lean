import OpenFlux.App.Installer

/-!
# Correctness of `runInstaller`

The loop reads lines from chunks as `LineReader.readChunks` does, each chunk decoded on its own
(`runInstaller_eq`).  It finds the same in all chunks if none of them ends inside of a character and
no line is longer than what may stay pending (`runInstaller_of_decode`).  A stream is read alike in
any chunks exactly if no two of its bytes begin a character and no line of it is too long, as far as
its lines are among those that are kept (`same_iff`).
-/

namespace OpenFlux.App.Installer

open Kotlin LineReader

/-! ### The loop -/

theorem takeLines_eq (o : Output) (pending : Text) :
    o.takeLines pending =
      ((split 0x0A pending).1.foldl Output.endLine o, (split 0x0A pending).2) := by
  induction pending using lines_induction (0x0A : UInt16) generalizing o with
  | rest s hs => rw [Output.takeLines, if_neg hs, split_of_not_mem hs, List.foldl_nil]
  | line s t hs ih =>
    have hne : ∀ u ∈ s, (u != 0x0A) = true := fun u hu => bne_iff_ne.mpr fun h => hs (h ▸ hu)
    have htake : (s ++ 0x0A :: t).takeWhile (· != 0x0A) = s := by
      rw [List.takeWhile_append_of_pos hne]
      simp
    have hdrop : (s ++ 0x0A :: t).dropWhile (· != 0x0A) = 0x0A :: t := by
      rw [List.dropWhile_append_of_pos hne]
      simp
    rw [Output.takeLines, if_pos (by simp), htake, hdrop, List.drop_one, List.tail_cons, ih,
      split_line hs, List.foldl_cons]

theorem foldl_readChunk (chunks : List Bytes) (o : Output) (pending : Text) :
    chunks.foldl Output.readChunk (o, pending) =
      ((readChunks 0x0A 32768 pending (chunks.map Utf8.decode)).1.foldl Output.endLine o,
        (readChunks 0x0A 32768 pending (chunks.map Utf8.decode)).2) := by
  induction chunks generalizing o pending with
  | nil => rfl
  | cons chunk chunks ih =>
    have hcut : ∀ rest : Text, (if 32768 < rest.length then rest.drop (rest.length - 32768)
        else rest) = rest.rtake 32768 := by
      intro rest
      split_ifs with hlt
      · rfl
      · rw [List.rtake, Nat.sub_eq_zero_of_le (Nat.not_lt.mp hlt), List.drop_zero]
    rw [List.foldl_cons, Output.readChunk, takeLines_eq]
    dsimp only
    rw [hcut, ih, List.map_cons, readChunks, List.foldl_append]

/-- What is found once these lines have ended and this is left. -/
def finish (r : List Text × Text) : Output :=
  if r.2 ≠ [] then (r.1.foldl Output.endLine {}).addLine r.2 else r.1.foldl Output.endLine {}

theorem runInstaller_eq (chunks : List Bytes) :
    runInstaller chunks = finish (readChunks 0x0A 32768 [] (chunks.map Utf8.decode)) := by
  rw [runInstaller, foldl_readChunk]
  rfl

/-! ### The lines that are kept -/

/-- The line that has not ended. -/
def lastLine {α : Type} [DecidableEq α] (pending : List α) : List (List α) :=
  if pending = [] then [] else [pending]

theorem lines_endLine (o : Output) (line : Text) :
    (o.endLine line).lines = (o.addLine (trimEnd line)).lines := by
  rw [Output.endLine]
  split <;> rfl

theorem lines_addLine {o : Output} (h : o.lines.length < 400) (line : Text) :
    (o.addLine line).lines = o.lines ++ [line] := by
  rw [Output.addLine]
  dsimp only
  rw [if_neg h.ne]

theorem lines_foldl (lines : List Text) {o : Output} (h : o.lines.length + lines.length ≤ 400) :
    (lines.foldl Output.endLine o).lines = o.lines ++ lines.map trimEnd := by
  induction lines generalizing o with
  | nil => rw [List.foldl_nil, List.map_nil, List.append_nil]
  | cons line lines ih =>
    rw [List.length_cons] at h
    have hline := lines_endLine o line
    rw [lines_addLine (by omega)] at hline
    rw [List.foldl_cons, ih (by rw [hline, List.length_append, List.length_singleton]; omega),
      hline, List.append_assoc, List.map_cons, List.singleton_append]

/-- All lines, if there are not too many. -/
theorem lines_finish {r : List Text × Text} (h : (r.1 ++ lastLine r.2).length ≤ 400) :
    (finish r).lines = r.1.map trimEnd ++ lastLine r.2 := by
  rw [List.length_append, lastLine] at h
  rw [finish, lastLine]
  have hlines := lines_foldl r.1 (o := {}) (by rw [List.length_nil]; omega)
  rw [List.nil_append] at hlines
  by_cases hlast : r.2 = []
  · rw [if_neg (not_not.mpr hlast), if_pos hlast, hlines, List.append_nil]
  · rw [if_neg hlast, List.length_singleton] at h
    rw [if_pos hlast, if_neg hlast, lines_addLine (by rw [hlines, List.length_map]; omega), hlines]

/-! ### Texts that decide everything -/

/-- **Short lines**: what is found depends only on the text that is decoded. -/
theorem runInstaller_of_decode {chunks : List Bytes} {text : Text}
    (htext : (chunks.map Utf8.decode).flatten = text)
    (hshort : ∀ line ∈ (split 0x0A text).1, line.length ≤ 32768) :
    runInstaller chunks = finish ((split 0x0A text).1, (split 0x0A text).2.rtake 32768) := by
  subst htext
  rw [runInstaller_eq, readChunks_eq hshort]

/-- Every chunk ends with a character. -/
def Whole (chunks : List Bytes) : Prop :=
  ∀ chunk ∈ chunks, (Utf8.Decoder.after {} chunk).ranges = []

theorem decode_of_whole {chunks : List Bytes} (h : Whole chunks) :
    (chunks.map Utf8.decode).flatten = Utf8.decode chunks.flatten := by
  induction chunks with
  | nil => rfl
  | cons chunk chunks ih =>
    obtain ⟨hchunk, h⟩ := List.forall_mem_cons.mp h
    rw [List.map_cons, List.flatten_cons, List.flatten_cons, Utf8.decode_append hchunk, ih h]

/-- No two bytes begin a character. -/
def Single (b : Bytes) : Prop := b.IsChain fun c d => Utf8.continues c d = false

theorem decode_of_single {chunks : List Bytes} (h : Single chunks.flatten) :
    (chunks.map Utf8.decode).flatten = chunks.flatten.map Utf8.single := by
  induction chunks with
  | nil => rfl
  | cons chunk chunks ih =>
    rw [List.flatten_cons] at h ⊢
    rw [List.map_cons, List.flatten_cons, Utf8.decode_of_isChain h.left_of_append,
      ih h.right_of_append, List.map_append]

theorem split_single (b : Bytes) :
    split 0x0A (b.map Utf8.single) =
      ((split 0x0A b).1.map (List.map Utf8.single), (split 0x0A b).2.map Utf8.single) :=
  split_map (Utf8.single_eq_iff (d := 0x0A) (by decide)) b

/-! ### All divisions of a stream -/

/-- The same is found, however the stream is read. -/
def Same (b : Bytes) : Prop :=
  ∀ chunks chunks', Divides chunks b → Divides chunks' b →
    runInstaller chunks = runInstaller chunks'

/-- No two bytes begin a character, and no line is longer than what may stay pending. -/
def Plain (b : Bytes) : Prop := Single b ∧ ∀ line ∈ (split 0x0A b).1, line.length ≤ 32768

theorem same_of_plain {b : Bytes} (h : Plain b) : Same b := by
  have hshort : ∀ line ∈ (split 0x0A (b.map Utf8.single)).1, line.length ≤ 32768 := by
    rw [split_single]
    intro line hline
    obtain ⟨bytes, hbytes, rfl⟩ := List.mem_map.mp hline
    rw [List.length_map]
    exact h.2 bytes hbytes
  have hfound : ∀ chunks, Divides chunks b → runInstaller chunks =
      finish ((split 0x0A (b.map Utf8.single)).1,
        (split 0x0A (b.map Utf8.single)).2.rtake 32768) := by
    rintro chunks ⟨rfl, -⟩
    exact runInstaller_of_decode (decode_of_single h.1) hshort
  intro chunks chunks' hchunks hchunks'
  rw [hfound chunks hchunks, hfound chunks' hchunks']

/-- Each byte is a chunk. -/
def bytewise (b : Bytes) : List Bytes := b.map fun c => [c]

theorem flatten_bytewise (b : Bytes) : (bytewise b).flatten = b := by
  induction b with
  | nil => rfl
  | cons c b ih => rw [bytewise, List.map_cons, List.flatten_cons, ← bytewise, ih]; rfl

theorem bounds_bytewise {b chunk : Bytes} (h : chunk ∈ bytewise b) :
    chunk ≠ [] ∧ chunk.length ≤ 8192 := by
  obtain ⟨c, -, rfl⟩ := List.mem_map.mp h
  exact ⟨List.cons_ne_nil _ _, by simp⟩

theorem divides_bytewise (b : Bytes) : Divides (bytewise b) b :=
  ⟨flatten_bytewise b, fun _ => bounds_bytewise⟩

/-- A chunk among single bytes. -/
theorem divides_insert (p t : Bytes) {m : Bytes} (hm : m ≠ []) (hle : m.length ≤ 8192) :
    Divides (bytewise p ++ m :: bytewise t) (p ++ (m ++ t)) := by
  constructor
  · rw [List.flatten_append, List.flatten_cons, flatten_bytewise, flatten_bytewise]
  · intro chunk hchunk
    rcases List.mem_append.mp hchunk with h | h
    · exact bounds_bytewise h
    rcases List.mem_cons.mp h with rfl | h
    · exact ⟨hm, hle⟩
    · exact bounds_bytewise h

theorem decode_bytewise (b : Bytes) :
    (bytewise b).map Utf8.decode = (b.map Utf8.single).map fun u => [u] := by
  rw [bytewise, List.map_map, List.map_map]
  exact List.map_congr_left fun c _ => Utf8.decode_of_isChain (.singleton c)

theorem flatten_decode_bytewise (b : Bytes) :
    ((bytewise b).map Utf8.decode).flatten = b.map Utf8.single := by
  induction b with
  | nil => rfl
  | cons c b ih =>
    have hc : Utf8.decode [c] = [Utf8.single c] := Utf8.decode_of_isChain (.singleton c)
    rw [bytewise, List.map_cons, List.map_cons, List.flatten_cons, ← bytewise, ih, hc]
    rfl

/-- All lines are kept, what does not end is not too long, and what is longer does not end in
carriage returns alone. -/
structure Seen (b : Bytes) : Prop where
  kept : ((split 0x0A b).1 ++ lastLine (split 0x0A b).2).length ≤ 400
  last : (split 0x0A b).2.length ≤ 32768
  ends : ∀ line ∈ (split 0x0A b).1, 32768 < line.length → ∃ c ∈ line.rtake 32769, c ≠ 0x0D

/-! #### Two bytes that begin a character -/

theorem trimEnd_concat_return (s : Text) : trimEnd (s ++ [0x0D]) = trimEnd s :=
  List.rdropWhile_concat_pos _ _ _ rfl

theorem trimEnd_concat {u : UInt16} (hu : u ≠ 0x0D) (s : Text) : trimEnd (s ++ [u]) = s ++ [u] :=
  List.rdropWhile_concat_neg _ _ _ (by simpa using hu)

theorem trimEnd_append {u : UInt16} (hu : u ≠ 0x0D) (s t : Text) :
    trimEnd (s ++ u :: t) = s ++ u :: trimEnd t := by
  induction t using List.reverseRecOn with
  | nil => exact trimEnd_concat hu s
  | append_singleton t v ih =>
    have hassoc : s ++ u :: (t ++ [v]) = (s ++ u :: t) ++ [v] := by simp
    rw [hassoc]
    by_cases hv : v = 0x0D
    · rw [hv, trimEnd_concat_return, trimEnd_concat_return, ih]
    · rw [trimEnd_concat hv, trimEnd_concat hv, hassoc]

/-- The lines that are kept of a text that is read in chunks. -/
theorem lines_runInstaller {chunks : List Bytes} {text : Text}
    (htext : (chunks.map Utf8.decode).flatten = text)
    (hshort : ∀ line ∈ (split 0x0A text).1, line.length ≤ 32768)
    (hlast : (split 0x0A text).2.length ≤ 32768)
    (hkept : ((split 0x0A text).1 ++ lastLine (split 0x0A text).2).length ≤ 400) :
    (runInstaller chunks).lines =
      (split 0x0A text).1.map trimEnd ++ lastLine (split 0x0A text).2 := by
  have hrtake : (split 0x0A text).2.rtake 32768 = (split 0x0A text).2 := by
    rw [List.rtake, Nat.sub_eq_zero_of_le hlast, List.drop_zero]
  rw [runInstaller_of_decode htext hshort, hrtake, lines_finish hkept]

theorem length_lastLine_map {α β : Type} [DecidableEq α] [DecidableEq β] (f : α → β) (s : List α) :
    (lastLine (s.map f)).length = (lastLine s).length := by
  cases s <;> rfl

theorem kept_single {b : Bytes} (hseen : Seen b) :
    ((split 0x0A (b.map Utf8.single)).1 ++
      lastLine (split 0x0A (b.map Utf8.single)).2).length ≤ 400 := by
  rw [split_single, List.length_append, List.length_map, length_lastLine_map, ← List.length_append]
  exact hseen.kept

/-- The bounds on the lines of a stream, for the text that is read byte by byte. -/
theorem bounds_single {b : Bytes} (hseen : Seen b)
    (hshort : ∀ line ∈ (split 0x0A b).1, line.length ≤ 32768) :
    (∀ line ∈ (split 0x0A (b.map Utf8.single)).1, line.length ≤ 32768) ∧
      (split 0x0A (b.map Utf8.single)).2.length ≤ 32768 := by
  rw [split_single]
  refine ⟨fun line hline => ?_, by rw [List.length_map]; exact hseen.last⟩
  obtain ⟨bytes, hbytes, rfl⟩ := List.mem_map.mp hline
  rw [List.length_map]
  exact hshort bytes hbytes

/-- The two bytes, in a chunk of their own, take away a code unit of their line. -/
theorem single_of_same {b : Bytes} (hseen : Seen b)
    (hshort : ∀ line ∈ (split 0x0A b).1, line.length ≤ 32768) (h : Same b) : Single b := by
  refine List.isChain_iff_forall_rel_of_append_cons_cons.mpr fun c d p t hb => ?_
  rw [← Bool.not_eq_true]
  intro hcontinues
  obtain ⟨hc, hd⟩ := Utf8.single_of_continues hcontinues
  obtain ⟨u, hu, hle⟩ := Utf8.decode_of_continues hcontinues
  -- the text that is read byte by byte, and with the two bytes at once
  have htext : ((bytewise b).map Utf8.decode).flatten =
      p.map Utf8.single ++ ([Utf8.replacement, Utf8.replacement] ++ t.map Utf8.single) := by
    rw [flatten_decode_bytewise, hb, List.map_append, List.map_cons, List.map_cons, hc, hd]
    rfl
  have htext' : ((bytewise p ++ [c, d] :: bytewise t).map Utf8.decode).flatten =
      p.map Utf8.single ++ ([u] ++ t.map Utf8.single) := by
    rw [List.map_append, List.map_cons, List.flatten_append, List.flatten_cons,
      flatten_decode_bytewise, flatten_decode_bytewise, hu]
  have hsame := congrArg Output.lines (h _ _ (divides_bytewise b)
    (hb ▸ divides_insert p t (List.cons_ne_nil c [d]) (by simp)))
  obtain ⟨hshort, hlast⟩ := bounds_single hseen hshort
  have hkept := kept_single hseen
  rw [← flatten_decode_bytewise, htext] at hshort hlast hkept
  have hnewline : u ≠ 0x0A := by rintro rfl; exact absurd hle (by decide)
  have hreturn : u ≠ 0x0D := by rintro rfl; exact absurd hle (by decide)
  have hmiddle := @split_middle _ _ 0x0A [Utf8.replacement, Utf8.replacement] (by decide)
    (p.map Utf8.single) (t.map Utf8.single)
  have hmiddle' := @split_middle _ _ 0x0A [u] (by simpa using hnewline.symm)
    (p.map Utf8.single) (t.map Utf8.single)
  rw [lines_runInstaller htext hshort hlast hkept] at hsame
  rcases hlines : (split 0x0A (t.map Utf8.single)).1 with - | ⟨line, lines⟩ <;>
    rw [hlines] at hmiddle hmiddle' <;> dsimp only at hmiddle hmiddle' <;>
    rw [hmiddle] at hshort hlast hkept hsame
  -- in the line that has not ended
  · rw [lines_runInstaller htext' (by rwa [hmiddle']) (by rw [hmiddle']; simp at hlast ⊢; omega)
      (by rw [hmiddle']; simpa [lastLine] using hkept), hmiddle'] at hsame
    have hline := List.append_cancel_left hsame
    simp only [lastLine, List.append_eq_nil_iff, List.cons_ne_nil, false_and, and_false, if_false,
      List.cons.injEq, and_true] at hline
    have hlength := congrArg List.length hline
    simp only [List.length_append, List.length_cons, List.length_nil] at hlength
    omega
  -- in a line that has ended
  · have hshort' : ∀ line ∈ (split 0x0A (p.map Utf8.single ++ ([u] ++ t.map Utf8.single))).1,
        line.length ≤ 32768 := by
      rw [List.forall_mem_append, List.forall_mem_cons] at hshort
      obtain ⟨hbefore, hline, hafter⟩ := hshort
      rw [hmiddle', List.forall_mem_append, List.forall_mem_cons]
      refine ⟨hbefore, ?_, hafter⟩
      simp only [List.length_append, List.length_cons, List.length_nil] at hline ⊢
      omega
    rw [lines_runInstaller htext' hshort' (by rwa [hmiddle']) (by rw [hmiddle']; simpa using hkept),
      hmiddle', List.map_append, List.map_append, List.append_assoc, List.append_assoc] at hsame
    have hline := (List.cons.inj (List.append_cancel_left hsame)).1
    have hassoc : ∀ w : Text, w ++ ([Utf8.replacement, Utf8.replacement] ++ line) =
        w ++ [Utf8.replacement] ++ Utf8.replacement :: line := by simp
    rw [hassoc, trimEnd_append (by decide), List.singleton_append, trimEnd_append hreturn] at hline
    have hlength := congrArg List.length hline
    simp only [List.length_append, List.length_cons, List.length_nil] at hlength
    omega

/-! #### Long lines -/

theorem trimEnd_cons {u : UInt16} {s : Text} (h : trimEnd (u :: s) = trimEnd s) :
    ∀ v ∈ u :: s, v = 0x0D := by
  by_cases hs : ∀ v ∈ s, v = 0x0D
  · have hnil : trimEnd s = [] := List.rdropWhile_eq_nil_iff.mpr (by simpa using hs)
    rw [hnil] at h
    simpa using List.rdropWhile_eq_nil_iff.mp h
  · push Not at hs
    obtain ⟨v, hv, hreturn⟩ := hs
    obtain ⟨s₁, s₂, rfl⟩ := List.append_of_mem hv
    rw [← List.cons_append, trimEnd_append hreturn, trimEnd_append hreturn] at h
    exact absurd (congrArg List.length h) (by simp)

theorem length_lastLine_rtake {limit : ℕ} (hlimit : 0 < limit) (s : Text) :
    (lastLine (s.rtake limit)).length = (lastLine s).length := by
  cases s with
  | nil => rw [List.rtake_nil]
  | cons u s =>
    have hne : (u :: s).rtake limit ≠ [] := by
      intro h
      have hlength := congrArg List.length h
      simp only [List.rtake, List.length_drop, List.length_cons, List.length_nil] at hlength
      omega
    rw [lastLine, lastLine, if_neg hne, if_neg (List.cons_ne_nil u s), List.length_singleton,
      List.length_singleton]

/-- As many lines are kept as the text has. -/
theorem length_kept {limit : ℕ} (hlimit : 0 < limit) (chunks : List Text) :
    ((readChunks 0x0A limit [] chunks).1 ++ lastLine (readChunks 0x0A limit [] chunks).2).length =
      ((split 0x0A chunks.flatten).1 ++ lastLine (split 0x0A chunks.flatten).2).length := by
  have hrest := @readChunks_rest _ _ 0x0A limit [] chunks List.not_mem_nil
  rw [List.rtake_nil, List.nil_append] at hrest
  rw [List.length_append, List.length_append, hrest, length_lastLine_rtake hlimit,
    length_readChunks List.not_mem_nil, length_split]

theorem lines_of_single {b : Bytes} (hseen : Seen b) {chunks : List Bytes}
    (htext : (chunks.map Utf8.decode).flatten = b.map Utf8.single) :
    (runInstaller chunks).lines =
      (readChunks 0x0A 32768 [] (chunks.map Utf8.decode)).1.map trimEnd ++
        lastLine (readChunks 0x0A 32768 [] (chunks.map Utf8.decode)).2 := by
  have hkept := kept_single hseen
  rw [← htext, ← length_kept (Nat.succ_pos 32767)] at hkept
  rw [runInstaller_eq, lines_finish hkept]

/-- A byte more that comes with the end of its line is a code unit more of the line. -/
theorem short_of_same {b : Bytes} (hseen : Seen b) (h : Same b) :
    ∀ line ∈ (split 0x0A b).1, line.length ≤ 32768 := by
  intro line hmem
  by_contra hlong
  obtain ⟨p, t, hb, hp, hline⟩ := exists_of_mem hmem
  rcases List.eq_nil_or_concat line with rfl | ⟨l, x, rfl⟩
  · exact absurd hlong (by simp)
  rw [List.concat_eq_append] at *
  rw [List.length_append, List.length_singleton, not_le] at hlong
  have hx : Utf8.single x ≠ 0x0A := fun hx =>
    hline (by rw [(Utf8.single_eq_iff (d := 0x0A) (by decide) x).mp hx]; simp)
  -- what is pending before the last byte of the line
  have hpending : (readChunks 0x0A 32768 [] ((bytewise (p ++ l)).map Utf8.decode)).2 =
      (l.map Utf8.single).rtake 32768 := by
    have hrest := @readChunks_rest _ _ 0x0A 32768 [] ((bytewise (p ++ l)).map Utf8.decode)
      List.not_mem_nil
    rw [List.rtake_nil, List.nil_append, flatten_decode_bytewise, split_single, split_append, hp,
      List.nil_append, split_of_not_mem fun hl => hline (List.mem_append_left _ hl)] at hrest
    exact hrest
  have hq : 0x0A ∉ (l.map Utf8.single).rtake 32768 := by
    refine not_mem_rtake (fun hmem => ?_) _
    obtain ⟨c, hc, hnewline⟩ := List.mem_map.mp hmem
    have hc' := (Utf8.single_eq_iff (d := 0x0A) (by decide) c).mp hnewline
    exact hline (List.mem_append_left _ (hc' ▸ hc))
  have hdivided : b = p ++ l ++ ([x, 0x0A] ++ t) := by rw [hb]; simp
  -- the bytes after it one by one, and at once
  have hone : (bytewise b).map Utf8.decode = (bytewise (p ++ l)).map Utf8.decode ++
      [Utf8.single x] :: [0x0A] :: (bytewise t).map Utf8.decode := by
    rw [decode_bytewise, decode_bytewise, decode_bytewise, hdivided, List.map_append,
      List.map_append (f := fun u : UInt16 => [u])]
    rfl
  have htwo : (bytewise (p ++ l) ++ [x, 0x0A] :: bytewise t).map Utf8.decode =
      (bytewise (p ++ l)).map Utf8.decode ++
        [Utf8.single x, 0x0A] :: (bytewise t).map Utf8.decode := by
    have hchain : [x, 0x0A].IsChain fun c d => Utf8.continues c d = false :=
      .cons_cons (Utf8.continues_of_lt (by decide)) (.singleton _)
    rw [List.map_append, List.map_cons, Utf8.decode_of_isChain hchain]
    rfl
  have htext : ((bytewise (p ++ l) ++ [x, 0x0A] :: bytewise t).map Utf8.decode).flatten =
      b.map Utf8.single := by
    rw [htwo, List.flatten_append, List.flatten_cons, flatten_decode_bytewise,
      flatten_decode_bytewise, hdivided]
    simp only [List.map_append]
    rfl
  have hsame := congrArg Output.lines (h _ _ (divides_bytewise b)
    (hdivided ▸ divides_insert (p ++ l) t (List.cons_ne_nil x [0x0A]) (by simp)))
  rw [lines_of_single hseen (flatten_decode_bytewise b), lines_of_single hseen htext, hone, htwo,
    readChunks_append, readChunks_append, hpending, readChunks_alone hq hx,
    readChunks_together hq hx] at hsame
  dsimp only at hsame
  rw [List.map_append, List.map_append, List.append_assoc, List.append_assoc, List.map_cons,
    List.map_cons] at hsame
  have htrim := (List.cons.inj (List.append_cancel_left hsame)).1
  -- so the line ends in carriage returns
  have htext : (l.map Utf8.single).rtake 32768 ++ [Utf8.single x] =
      ((l ++ [x]).rtake 32769).map Utf8.single := by
    rw [← List.rtake_concat_succ, List.rtake, List.rtake, List.map_drop, List.map_append,
      List.length_append, List.length_append, List.length_map]
    rfl
  have hlength : ((l ++ [x]).rtake 32769).length = 32769 := by
    rw [List.rtake, List.length_drop, List.length_append, List.length_singleton]
    omega
  rw [htext] at htrim
  obtain ⟨c, s, hcut⟩ := List.exists_cons_of_length_pos (hlength.trans_gt (by decide))
  rw [hcut, List.length_cons] at hlength
  have hs : (List.map Utf8.single (c :: s)).rtake 32768 = s.map Utf8.single := by
    rw [List.rtake, List.length_map, List.length_cons, hlength]
    rfl
  rw [hcut, hs] at htrim
  obtain ⟨d, hd, hreturn⟩ := hseen.ends _ hmem (by simpa using hlong)
  rw [hcut] at hd
  exact hreturn ((Utf8.single_eq_iff (d := 0x0D) (by decide) d).mp
    (trimEnd_cons htrim.symm _ (List.mem_map_of_mem hd)))

/-! ### Together -/

/-- **The output of the installer**: it is read alike in all chunks that end with a character if no
line is too long, and in all chunks if no two bytes begin a character besides; and for a stream
whose lines are all kept only then. -/
theorem same_iff (b : Bytes) :
    (∀ chunks chunks', Divides chunks b → Divides chunks' b → Whole chunks → Whole chunks' →
        (∀ line ∈ (split 0x0A (Utf8.decode b)).1, line.length ≤ 32768) →
          runInstaller chunks = runInstaller chunks') ∧
      (Plain b → Same b) ∧ (Seen b → (Same b ↔ Plain b)) := by
  refine ⟨fun chunks chunks' hchunks hchunks' hwhole hwhole' hshort => ?_, same_of_plain,
    fun hseen => ⟨fun h => ?_, same_of_plain⟩⟩
  · have hdecode := decode_of_whole hwhole
    have hdecode' := decode_of_whole hwhole'
    rw [hchunks.1] at hdecode
    rw [hchunks'.1] at hdecode'
    rw [runInstaller_of_decode hdecode hshort, runInstaller_of_decode hdecode' hshort]
  · have hshort := short_of_same hseen h
    exact ⟨single_of_same hseen hshort h, hshort⟩

/-- A letter of two bytes, in one chunk and in two. -/
theorem not_same_letter : ¬ Same [0xC3, 0xA9, 0x0A] := by
  intro h
  have hsame := h [[0xC3, 0xA9, 0x0A]] [[0xC3], [0xA9], [0x0A]] ⟨rfl, by simp⟩ ⟨rfl, by simp⟩
  rw [runInstaller_eq, runInstaller_eq] at hsame
  exact absurd hsame (by decide)

end OpenFlux.App.Installer
