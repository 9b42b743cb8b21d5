import ClientServer.Library.Runs
import Mathlib.Data.Nat.Notation

/-!
# `netlib/utils.cpp`: `getRandomNumber`

The engine and the distribution are static: the first call seeds the one and gives the other its
range, and every later call draws from this range, whatever it is asked for (`along_mem_first`).
So the numbers of a process are in the ranges that were asked for, whatever the distribution
draws, exactly if each of them covers that of the first call (`staysInRange_iff`).
-/

namespace ClientServer.Netlib

namespace RandomNumber

/-- The arguments of `getRandomNumber`: a range that is not empty. -/
structure Range where
  from_ : Int32
  to_ : Int32
  le : from_ ≤ to_

/-- The numbers from `from` to `to`. -/
instance : Membership Int32 Range := ⟨fun range n => range.from_ ≤ n ∧ n ≤ range.to_⟩

instance (n : Int32) (range : Range) : Decidable (n ∈ range) :=
  inferInstanceAs (Decidable (range.from_ ≤ n ∧ n ≤ range.to_))

/-- All numbers of one range are in the other. -/
def Range.Covers (outer inner : Range) : Prop :=
  outer.from_ ≤ inner.from_ ∧ inner.to_ ≤ outer.to_

/-- `std::mt19937`: its seed and how many numbers were drawn. -/
structure Engine where
  seed : UInt32
  drawn : ℕ

/-- What `std::uniform_int_distribution<int>` makes of an engine: some number of its range, and how
many numbers of the engine it takes for it. -/
structure Uniform where
  number : Range → Engine → Int32
  takes : Range → Engine → ℕ
  mem : ∀ dis gen, number dis gen ∈ dis

/-- The static variables of `getRandomNumber`, once they are initialised. -/
structure Statics where
  gen : Option Engine
  dis : Option Range

/-- Before the first call. -/
def Statics.new : Statics := ⟨none, none⟩

variable (uniform : Uniform) (device : UInt32)

/-- `dis(gen)`. -/
def Uniform.draw (dis : Range) (gen : Engine) : Int32 × Engine :=
  (uniform.number dis gen, { gen with drawn := gen.drawn + uniform.takes dis gen })

/-- `getRandomNumber`, in a process where `std::random_device` returns `device`. -/
def getRandomNumber (s : Statics) (range : Range) : Int32 × Statics :=
  let gen := s.gen.getD ⟨device, 0⟩
  let dis := s.dis.getD range
  let (number, gen) := uniform.draw dis gen
  (number, ⟨some gen, some dis⟩)

/-! ## Runs -/

/-- One call. -/
def step (s : Statics) (range : Range) : Option Statics :=
  some (getRandomNumber uniform device s range).2

/-- The call returns a number of its own range. -/
def InRange (s : Statics) (range : Range) : Prop :=
  (getRandomNumber uniform device s range).1 ∈ range

/-- Whatever the distribution draws and the device returns, each of these calls, made one after the
other in a new process, returns a number of its own range. -/
def StaysInRange (calls : List Range) : Prop :=
  ∀ uniform device, Along (step uniform device) (InRange uniform device) Statics.new calls

/-- Every call is for a range that covers that of the first one. -/
def CoverFirst (calls : List Range) : Prop :=
  ∀ first ∈ calls.head?, ∀ range ∈ calls, range.Covers first

variable {uniform device} {s : Statics} {first range : Range} {n : Int32} {calls : List Range}

lemma Range.Covers.mem (h : range.Covers first) (hn : n ∈ first) : n ∈ range :=
  ⟨Int32.le_trans h.1 hn.1, Int32.le_trans hn.2 h.2⟩

/-- A range that has the ends of another one covers it. -/
lemma Range.covers_of_ends (hfrom : first.from_ ∈ range) (hto : first.to_ ∈ range) :
    range.Covers first := ⟨hfrom.1, hto.2⟩

/-- The distribution keeps the range it was constructed with. -/
lemma preserves_dis {C : Statics → Range → Prop} :
    Preserves (step uniform device) C fun s => s.dis = some first := by
  intro s range s' hdis _ h
  cases h
  show some (s.dis.getD range) = some first
  rw [hdis, Option.getD_some]

/-- A call draws from the range that the distribution was constructed with. -/
lemma getRandomNumber_fst (hdis : s.dis = some first) (range : Range) :
    (getRandomNumber uniform device s range).1 =
      uniform.number first (s.gen.getD ⟨device, 0⟩) := by
  show uniform.number (s.dis.getD range) (s.gen.getD ⟨device, 0⟩) = _
  rw [hdis, Option.getD_some]

lemma getRandomNumber_mem (hdis : s.dis = some first) (range : Range) :
    (getRandomNumber uniform device s range).1 ∈ first := by
  rw [getRandomNumber_fst hdis]
  exact uniform.mem first _

/-- The first call leaves what a call leaves whose distribution has the range already. -/
lemma along_new_cons {P : Statics → Range → Prop} (hP : P .new first ↔ P ⟨none, first⟩ first) :
    Along (step uniform device) P .new (first :: calls) ↔
      Along (step uniform device) P ⟨none, first⟩ (first :: calls) := by
  rw [along_cons_of_eq rfl, along_cons_of_eq rfl, hP]
  rfl

/-- **Where the numbers come from.**  In every process, all calls return numbers of the range of
the first one. -/
theorem along_mem_first (first : Range) (calls : List Range) :
    Along (step uniform device) (fun s range => (getRandomNumber uniform device s range).1 ∈ first)
      .new (first :: calls) :=
  (along_new_cons Iff.rfl).mpr <|
    preserves_dis.along (fun _ range _ hdis _ _ => getRandomNumber_mem hdis range) rfl
      (along_of_forall (fun _ _ => trivial) _ _)

/-! ## Which calls stay in their ranges -/

/-- A distribution that always draws the same number of a range. -/
def Uniform.always (number : Range → Int32) (mem : ∀ dis, number dis ∈ dis) : Uniform :=
  ⟨fun dis _ => number dis, fun _ _ => 1, fun dis _ => mem dis⟩

lemma Range.from_mem (range : Range) : range.from_ ∈ range := ⟨Int32.le_refl _, range.le⟩

lemma Range.to_mem (range : Range) : range.to_ ∈ range := ⟨range.le, Int32.le_refl _⟩

/-- What is said of the calls that draw from the first range. -/
lemma along_iff_of_dis {P : Statics → Range → Prop} {D : Range → Prop} (hdis : s.dis = some first)
    (hiff : ∀ s range, s.dis = some first → (P s range ↔ D range)) :
    Along (step uniform device) P s calls ↔ ∀ range ∈ calls, D range :=
  preserves_dis.along_iff_forall (fun _ _ => ⟨_, rfl⟩) hiff hdis

/-- Where every number may be drawn, each number of the first range is in all of them. -/
lemma StaysInRange.mem (h : StaysInRange (first :: calls)) (number : Range → Int32)
    (mem : ∀ dis, number dis ∈ dis) : ∀ range ∈ first :: calls, number first ∈ range := by
  have halong := (along_new_cons Iff.rfl).mp (h (Uniform.always number mem) 0)
  refine (along_iff_of_dis rfl fun s range hdis => ?_).mp halong
  rw [InRange, getRandomNumber_fst hdis]
  rfl

/-- Numbers of the first range are in every range that covers it. -/
lemma staysInRange_cons (h : ∀ range ∈ first :: calls, range.Covers first) :
    StaysInRange (first :: calls) := by
  intro uniform device
  refine (along_new_cons Iff.rfl).mpr ?_
  have hcovers : Along (step uniform device) (fun _ range => range.Covers first) ⟨none, first⟩
      (first :: calls) :=
    (along_iff_of_dis (P := fun _ range => range.Covers first) rfl fun _ _ _ => Iff.rfl).mpr h
  exact preserves_dis.along (fun s range _ hdis hcover _ =>
    hcover.mem (getRandomNumber_mem hdis range)) rfl hcovers

/-- **When all numbers are in the ranges that were asked for.**  For any calls, whatever is drawn:
exactly if every range covers the first one. -/
theorem staysInRange_iff (calls : List Range) : StaysInRange calls ↔ CoverFirst calls := by
  cases calls with
  | nil => exact iff_of_true (fun _ _ => trivial) fun _ h => absurd h (Option.not_mem_none _)
  | cons first calls =>
    constructor
    · intro hstays _ hfirst range hrange
      rw [← Option.some_inj.mp hfirst]
      exact Range.covers_of_ends (hstays.mem Range.from_ Range.from_mem range hrange)
        (hstays.mem Range.to_ Range.to_mem range hrange)
    · exact fun hcover => staysInRange_cons (hcover first rfl)

/-- A call for a number up to 6, and one for a number from 10 on that returns 1. -/
theorem not_staysInRange_two : ¬ StaysInRange [⟨1, 6, by decide⟩, ⟨10, 20, by decide⟩] := by
  intro hstays
  have hsecond := ((hstays (Uniform.always Range.from_ Range.from_mem) 0 _ rfl).2 _ rfl).1
  exact absurd (show (1 : Int32) ∈ (⟨10, 20, by decide⟩ : Range) from hsecond) (by decide)

end RandomNumber

end ClientServer.Netlib
