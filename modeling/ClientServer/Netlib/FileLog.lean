import ClientServer.Library.Bytes
import ClientServer.Library.Runs
import Mathlib.Logic.Function.Basic

/-!
# `netlib/utils.cpp`: `write2file`

The name and the descriptor are static: the file of the first call is opened, and every later
call writes to it, whatever name it is given.  The loop around `write` counts in an `int` what the
size counts in 64 bits.  A process keeps the data of every name in its own file exactly as long as
the calls are for the first name (or pass nothing) and their sizes fit the counter
(`throughout_kept_iff`).
-/

namespace ClientServer.Netlib

/-- The static variables of `write2file`, with the names that the pointer and the descriptor stand
for, and the files. -/
structure FileLog (ν : Type*) where
  /-- `filename`, once it is initialised. -/
  filename : Option ν
  /-- The file behind `fd`, none for `-1`. -/
  fd : Option ν
  files : ν → Option Bytes

namespace FileLog

/-- What the calls of `write` in one call of `write2file` return, when they are asked for so many
bytes. -/
structure Writes where
  count : ℕ → ℕ → ℤ
  le : ∀ k asked, count k asked ≤ asked

/-- What the system answers in one call of `write2file`. -/
structure Answers where
  opens : Bool
  fstats : Bool
  ftruncates : Bool
  writes : Writes

/-- No call fails. -/
structure Answers.Succeed (a : Answers) : Prop where
  opens : a.opens = true
  fstats : a.fstats = true
  ftruncates : a.ftruncates = true
  writes : ∀ k asked, 0 < asked → 0 < a.writes.count k asked

/-- How the loop ends. -/
inductive LoopEnd
  /-- `write_size` is the size. -/
  | full
  /-- "write to file failed". -/
  | failed
  /-- `write_size` has no value that an `int` can have. -/
  | overflow
  deriving DecidableEq

/-- `MAX_SIZE`. -/
def maxSize : ℕ := 1024 * 1024 * 1024

/-- The loop that writes the rest from `write_size` on, from the `k`-th `write` of the call on:
the bytes that go to the file, and how it ends. -/
def writeLoop (writes : Writes) (data : Bytes) (k writeSize : ℕ) : Bytes × LoopEnd :=
  if writeSize = data.length then ([], .full)
  else
    let n := writes.count k (data.length - writeSize)
    let chunk := (data.drop writeSize).take n.toNat
    -- `int wr`
    let wr := (Int32.ofInt n).toInt
    if wr ≤ 0 then (chunk, .failed)
    else if 2 ^ 31 ≤ writeSize + wr.toNat then (chunk, .overflow)
    else
      let rest := writeLoop writes data (k + 1) (writeSize + wr.toNat)
      (chunk ++ rest.1, rest.2)
termination_by 2 ^ 31 - writeSize
decreasing_by
  show 2 ^ 31 - (writeSize + wr.toNat) < 2 ^ 31 - writeSize
  omega

variable {ν : Type*}

/-- What a file contains; nothing where there is none. -/
def content (files : ν → Option Bytes) (name : ν) : Bytes := (files name).getD []

/-- A new process and no files. -/
def new : FileLog ν := ⟨none, none, fun _ => none⟩

variable [DecidableEq ν]

/-- The statements of `write2file` up to the check of `fd`: only the first call initialises the
name. -/
def openFile (s : FileLog ν) (sfilename : ν) (opens : Bool) : FileLog ν :=
  let filename := s.filename.getD sfilename
  if s.fd = none ∧ opens = true then
    { filename := some filename
      fd := some filename
      files := Function.update s.files filename (some (content s.files filename)) }
  else { s with filename := some filename }

/-- `write2file`, and how its loop ends where it comes to it. -/
def write2file (s : FileLog ν) (sfilename : ν) (data : Bytes) (a : Answers) :
    FileLog ν × Option LoopEnd :=
  let s := s.openFile sfilename a.opens
  match s.fd with
  | none => (s, none)
  | some file =>
    if a.fstats = false then ({ s with fd := none }, none)
    else
      let old :=
        if maxSize ≤ (content s.files file).length ∧ a.ftruncates = true then []
        else content s.files file
      let written := writeLoop a.writes data 0 0
      ({ s with files := Function.update s.files file (some (old ++ written.1)) },
        some written.2)

/-! ## Runs -/

/-- A call of `write2file` that the system serves. -/
structure Call (ν : Type*) where
  sfilename : ν
  data : Bytes
  answers : Answers
  length_lt : data.length < 2 ^ 63
  succeed : answers.Succeed

/-- A process after some calls: beside its state, what its files should contain, and whether every
loop has written all bytes. -/
structure Run (ν : Type*) where
  log : FileLog ν
  expected : ν → Bytes
  full : Bool

/-- One call.  A call that finds the file of its name at `MAX_SIZE` empties it first. -/
def step (r : Run ν) (c : Call ν) : Option (Run ν) :=
  let result := r.log.write2file c.sfilename c.data c.answers
  let old :=
    if maxSize ≤ (content r.log.files c.sfilename).length then [] else r.expected c.sfilename
  some
    { log := result.1
      expected := Function.update r.expected c.sfilename (old ++ c.data)
      full := r.full && result.2 == some .full }

/-- No calls. -/
def Run.new : Run ν := ⟨FileLog.new, fun _ => [], true⟩

/-- Every file has its own data, and every loop wrote all of it. -/
def Kept (r : Run ν) : Prop := (∀ name, content r.log.files name = r.expected name) ∧ r.full = true

/-- The call is for the name of the first call, or it passes nothing and the file of that name is
small; and its size fits the counter. -/
def OwnFile (r : Run ν) (c : Call ν) : Prop :=
  (∀ first, r.log.filename = some first → c.sfilename = first ∨
    c.data = [] ∧ (content r.log.files first).length < maxSize) ∧ c.data.length < 2 ^ 31

/-! ## The loop -/

section Loop

variable {writes : Writes} {data : Bytes}

/-- A size that fits the counter is written to its end. -/
lemma writeLoop_eq_full (hpos : ∀ k asked, 0 < asked → 0 < writes.count k asked)
    (hlen : data.length < 2 ^ 31) (k writeSize : ℕ) (hle : writeSize ≤ data.length) :
    writeLoop writes data k writeSize = (data.drop writeSize, .full) := by
  generalize hrest : data.length - writeSize = rest
  induction rest using Nat.strong_induction_on generalizing k writeSize with
  | _ rest ih =>
    rw [writeLoop]
    split
    · next heq => rw [heq, List.drop_length]
    · next hne =>
      have hcount : 0 < writes.count k (data.length - writeSize) := hpos _ _ (by omega)
      have hasked := writes.le k (data.length - writeSize)
      -- the count is positive and fits an `int`, so the assignment does not change it
      have hwr := Int32.toInt_ofInt_of_le
        (show -2 ^ 31 ≤ writes.count k (data.length - writeSize) by omega) (by omega)
      dsimp only
      rw [hwr, if_neg (by omega), if_neg (by omega), ih _ (by omega) (k + 1) _ (by omega) rfl,
        ← List.drop_drop, List.take_append_drop]

lemma writeLoop_nil (k : ℕ) : writeLoop writes [] k 0 = ([], .full) := by
  rw [writeLoop, if_pos List.length_nil.symm]

/-- The counter only gets to a size that fits it. -/
lemma length_lt_of_full {k writeSize : ℕ} (hlt : writeSize < 2 ^ 31)
    (hfull : (writeLoop writes data k writeSize).2 = .full) : data.length < 2 ^ 31 := by
  fun_induction writeLoop writes data k writeSize with
  | case1 => exact hlt
  | case2 => cases hfull
  | case3 => cases hfull
  | case4 k writeSize hne n chunk wr hwr hsum rest ih => exact ih (not_le.mp hsum) hfull

end Loop

/-! ## One call -/

lemma content_update (files : ν → Option Bytes) (file name : ν) (bs : Bytes) :
    content (Function.update files file (some bs)) name =
      if name = file then bs else content files name := by
  by_cases h : name = file
  · simp only [content, h, Function.update_self, Option.getD_some, if_true]
  · simp only [content, Function.update_of_ne h, h, if_false]

/-- What a call that finds this in a file leaves of it. -/
def emptied (bs : Bytes) : Bytes := if maxSize ≤ bs.length then [] else bs

lemma emptied_of_lt {bs : Bytes} (h : bs.length < maxSize) : emptied bs = bs := if_neg h.not_ge

lemma length_lt_of_emptied_eq {bs : Bytes} (h : emptied bs = bs) : bs.length < maxSize := by
  rw [emptied] at h
  split at h
  · rw [← h]
    exact Nat.zero_lt_succ _
  · next hlt => exact not_le.mp hlt

variable {s : FileLog ν} {a : Answers}

/-- Whatever name the call has, the file of the first name is open, and no file has changed. -/
lemma openFile_spec (sfilename : ν) (hfd : s.fd = s.filename) :
    (s.openFile sfilename true).filename = some (s.filename.getD sfilename) ∧
      (s.openFile sfilename true).fd = some (s.filename.getD sfilename) ∧
      content (s.openFile sfilename true).files = content s.files := by
  cases hfilename : s.filename with
  | none =>
    rw [hfilename] at hfd
    simp only [openFile, hfd, hfilename, Option.getD_none, and_self, if_true, true_and]
    funext name
    rw [content_update]
    split
    · next heq => rw [heq]
    · rfl
  | some first =>
    rw [hfilename] at hfd
    simp only [openFile, hfd, hfilename, Option.getD_some, reduceCtorEq, false_and, if_false,
      and_self]

/-- What a call does that the system serves: it appends to the file of the first name. -/
lemma write2file_spec (sfilename : ν) (data : Bytes) (hfd : s.fd = s.filename)
    (ha : a.Succeed) :
    (s.write2file sfilename data a).1.filename = some (s.filename.getD sfilename) ∧
      (s.write2file sfilename data a).1.fd = some (s.filename.getD sfilename) ∧
      (s.write2file sfilename data a).2 = some (writeLoop a.writes data 0 0).2 ∧
      ∀ name, content (s.write2file sfilename data a).1.files name =
        if name = s.filename.getD sfilename then
          emptied (content s.files name) ++ (writeLoop a.writes data 0 0).1
        else content s.files name := by
  obtain ⟨hfilename, hopen, hcontent⟩ := openFile_spec sfilename hfd
  simp only [write2file, ha.opens, ha.fstats, ha.ftruncates, hopen, hfilename, hcontent, and_true,
    Bool.true_eq_false, if_false, true_and, content_update]
  intro name
  split
  · next heq => rw [heq, emptied]
  · rfl

/-! ## One step -/

/-- Every file has its own data, and the only file that has any is that of the first name, which
the descriptor stands for. -/
structure Inv (r : Run ν) : Prop where
  kept : Kept r
  fd : r.log.fd = r.log.filename
  other : ∀ name, r.log.filename ≠ some name → content r.log.files name = []

omit [DecidableEq ν] in
lemma inv_new : Inv (Run.new : Run ν) where
  kept := ⟨fun _ => rfl, rfl⟩
  fd := rfl
  other := fun _ _ => rfl

variable {r r' : Run ν} {c : Call ν}

/-- What a step does while every file has its own data. -/
structure Steps (r : Run ν) (c : Call ν) (first : ν) (r' : Run ν) : Prop where
  filename : r'.log.filename = some first
  fd : r'.log.fd = some first
  full : r'.full = true ↔ (writeLoop c.answers.writes c.data 0 0).2 = .full
  content : ∀ name, content r'.log.files name =
    if name = first then
      emptied (content r.log.files name) ++ (writeLoop c.answers.writes c.data 0 0).1
    else content r.log.files name
  expected : ∀ name, r'.expected name =
    if name = c.sfilename then emptied (FileLog.content r.log.files name) ++ c.data
    else FileLog.content r.log.files name

lemma Inv.steps (hr : Inv r) (h : step r c = some r') :
    Steps r c (r.log.filename.getD c.sfilename) r' := by
  obtain ⟨hfilename, hfd, hend, hcontent⟩ :=
    write2file_spec c.sfilename c.data hr.fd c.succeed
  cases h
  refine ⟨hfilename, hfd, ?_, hcontent, fun name => ?_⟩
  · simp only [hr.kept.2, hend, Bool.true_and, beq_iff_eq, Option.some.injEq]
  · by_cases hname : name = c.sfilename
    · subst hname
      simp only [Function.update_self, if_true, ← hr.kept.1 c.sfilename, emptied]
    · simp only [Function.update_of_ne hname, hname, if_false, ← hr.kept.1 name]

omit [DecidableEq ν] in
/-- Only the file of the first name has any data. -/
lemma Inv.content_eq_nil (hr : Inv r) (sfilename : ν) {name : ν}
    (hname : name ≠ r.log.filename.getD sfilename) : content r.log.files name = [] := by
  refine hr.other name fun hfilename => hname ?_
  rw [hfilename, Option.getD_some]

/-- A call appends to the file of its name if this is the first one, and to none if it passes
nothing. -/
lemma Inv.same_content (hr : Inv r) (hown : OwnFile r c) (name : ν) :
    (if name = r.log.filename.getD c.sfilename then emptied (content r.log.files name) ++ c.data
      else content r.log.files name) =
    if name = c.sfilename then emptied (content r.log.files name) ++ c.data
    else content r.log.files name := by
  by_cases hfirst : r.log.filename.getD c.sfilename = c.sfilename
  · rw [hfirst]
  · obtain ⟨first, hfilename⟩ : ∃ first, r.log.filename = some first := by
      cases hfilename : r.log.filename with
      | none => rw [hfilename] at hfirst; exact absurd rfl hfirst
      | some first => exact ⟨first, rfl⟩
    have hgetD : r.log.filename.getD c.sfilename = first := by rw [hfilename, Option.getD_some]
    rw [hgetD] at hfirst
    obtain ⟨hdata, hsmall⟩ := (hown.1 first hfilename).resolve_left (Ne.symm hfirst)
    have hemptied : emptied (content r.log.files name) = content r.log.files name := by
      refine emptied_of_lt ?_
      by_cases hname : name = first
      · rwa [hname]
      · rw [hr.content_eq_nil c.sfilename (hgetD.symm ▸ hname)]
        exact Nat.zero_lt_succ _
    rw [hdata, List.append_nil, hemptied, ite_self, ite_self]

lemma Inv.step (hr : Inv r) (hown : OwnFile r c) (h : step r c = some r') : Inv r' := by
  have hs := hr.steps h
  have hloop := writeLoop_eq_full c.succeed.writes hown.2 0 0 (Nat.zero_le _)
  rw [List.drop_zero] at hloop
  refine ⟨⟨fun name => ?_, hs.full.mpr (by rw [hloop])⟩, ?_, fun name hname => ?_⟩
  · rw [hs.content, hs.expected, hloop]
    exact hr.same_content hown name
  · rw [hs.fd, hs.filename]
  · rw [hs.filename] at hname
    have hne : name ≠ r.log.filename.getD c.sfilename := fun heq => hname (congrArg some heq.symm)
    rw [hs.content, if_neg hne, hr.content_eq_nil _ hne]

lemma Inv.ownFile (hr : Inv r) (h : FileLog.step r c = some r') (hkept : Kept r') :
    OwnFile r c := by
  have hs := hr.steps h
  refine ⟨fun first hfirst => ?_, length_lt_of_full (by decide) (hs.full.mp hkept.2)⟩
  have hname : r.log.filename.getD c.sfilename = first := by rw [hfirst, Option.getD_some]
  rw [hname] at hs
  by_cases heq : c.sfilename = first
  · exact Or.inl heq
  · right
    have hother : FileLog.content r.log.files c.sfilename = [] :=
      hr.content_eq_nil c.sfilename (hname.symm ▸ heq)
    have hdata := hkept.1 c.sfilename
    rw [hs.content, hs.expected, if_neg heq, if_pos rfl, hother, emptied_of_lt (by decide),
      List.nil_append] at hdata
    have hsame := hkept.1 first
    rw [hs.content, hs.expected, if_pos rfl, if_neg (Ne.symm heq)] at hsame
    rw [← hdata, writeLoop_nil, List.append_nil] at hsame
    exact ⟨hdata.symm, length_lt_of_emptied_eq hsame⟩

lemma preserves_inv : Preserves (FileLog.step (ν := ν)) OwnFile Inv :=
  fun _ _ _ hr hown h => hr.step hown h

/-- **When every file keeps its own data.**  In all runs, whatever part of the data each `write`
takes: every file has exactly what was passed for it, and every loop writes all bytes, exactly as
long as the calls are for the first name or pass nothing, and their sizes fit the counter. -/
theorem throughout_kept_iff (cs : List (Call ν)) :
    Throughout FileLog.step Kept Run.new cs ↔ Along FileLog.step OwnFile Run.new cs :=
  preserves_inv.throughout_iff (fun _ hr => hr.kept) (fun _ _ _ hr h hkept =>
    hr.ownFile h hkept) inv_new

/-- A system on which every `write` takes all bytes. -/
def allAtOnce : Answers := ⟨true, true, true, ⟨fun _ asked => asked, fun _ _ => le_rfl⟩⟩

lemma allAtOnce_succeed : allAtOnce.Succeed :=
  ⟨rfl, rfl, rfl, fun _ _ h => Int.natCast_pos.mpr h⟩

/-- Data for a second name goes to the file of the first one; and the loop does not end where the
size is one that the counter cannot have. -/
theorem not_kept_two_names :
    ¬ Throughout step Kept (Run.new : Run String)
      [⟨"a", [1], allAtOnce, by decide, allAtOnce_succeed⟩,
        ⟨"b", [2], allAtOnce, by decide, allAtOnce_succeed⟩] ∧
    ¬ Throughout step Kept (Run.new : Run String)
      [⟨"a", List.replicate (2 ^ 31) 0, allAtOnce,
        by rw [List.length_replicate]; exact Nat.pow_lt_pow_right (by decide) (by decide),
        allAtOnce_succeed⟩] := by
  constructor
  · intro hkept
    have hb := ((hkept.2 _ rfl).2 _ rfl).1 "b"
    exact absurd (show ([] : Bytes) = [2] from hb) (by decide)
  · intro hkept
    have hlt := length_lt_of_full (by decide) ((inv_new.steps rfl).full.mp (hkept.2 _ rfl).2)
    rw [List.length_replicate] at hlt
    exact lt_irrefl _ hlt

end FileLog

end ClientServer.Netlib
