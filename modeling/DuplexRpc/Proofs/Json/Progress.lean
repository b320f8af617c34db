import DuplexRpc.Json.Reader
import DuplexRpc.Proofs.Json.Strings

namespace DuplexRpc.Json

namespace Reader

@[simp] theorem located_toOption {α : Type} (taken : Nat) (x : Except Cause α) :
    (located taken x).toOption = x.toOption := by
  cases x <;> rfl

-- What an octet leads to does not depend on how many were taken before it.
theorem advance_toOption (r : Reader) (one two : Nat) (b : UInt8) :
    (r.advance one b).toOption = (r.advance two b).toOption := by
  obtain ⟨enclosing, mode⟩ := r
  cases mode <;> simp only [advance] <;> (repeat' split) <;>
    first | rfl | exact (located_toOption ..).trans (located_toOption ..).symm

-- The value of a text that the reader goes on with, if it is one.
def result (r : Reader) (bytes : List UInt8) : Option Json := (r.run 0 bytes).toOption

theorem run_toOption (r : Reader) (one two : Nat) (bytes : List UInt8) :
    (r.run one bytes).toOption = (r.run two bytes).toOption := by
  induction bytes generalizing r one two with
  | nil => simp [run]
  | cons b rest ih =>
    have step := r.advance_toOption (one + 1) (two + 1) b
    simp only [run]
    cases first : r.advance (one + 1) b <;> cases second : r.advance (two + 1) b <;>
      simp [first, second, Except.toOption] at step ⊢
    subst step
    exact ih ..

theorem result_nil (r : Reader) : r.result [] = r.finish.toOption := by
  simp [result, run]

theorem result_cons (r : Reader) (b : UInt8) (rest : List UInt8) :
    r.result (b :: rest) = ((r.advance 0 b).toOption).bind fun next => next.result rest := by
  have step := r.advance_toOption 1 0 b
  simp only [result, run]
  rw [← step]
  cases r.advance 1 b with
  | error _ => rfl
  | ok next => exact run_toOption next 1 0 rest

theorem read_toOption (bytes : List UInt8) : (read bytes).toOption = start.result bytes := rfl

-- The text may not end here.
def Unfinished (r : Reader) : Prop := r.finish.toOption = none

theorem unfinished_inside {r : Reader} (inside : r.enclosing ≠ []) : r.Unfinished := by
  obtain ⟨enclosing, mode⟩ := r
  have refused : ∀ v, (finishValue ⟨enclosing, mode⟩ v).toOption = none := by
    intro v
    unfold finishValue
    split
    · contradiction
    · rfl
    · rfl
  cases mode with
  | numeral n =>
    change (n.finish.bind fun v => finishValue ⟨enclosing, .numeral n⟩ (.number v)).toOption = none
    cases n.finish with
    | error _ => rfl
    | ok v => exact refused (.number v)
  | after v => exact refused v
  | _ => rfl

-- Octets taken one after the other, none of them at a place where the text may end: to where
-- they lead, or to nothing where one of them is refused.
inductive Along : Reader → List UInt8 → Option Reader → Prop
  | done {r} : Along r [] (some r)
  | step {r next b rest out} : r.Unfinished → (r.advance 0 b).toOption = some next → Along next rest out →
      Along r (b :: rest) out
  | stop {r b rest} : r.Unfinished → (r.advance 0 b).toOption = none → Along r (b :: rest) none

variable {r mid next : Reader} {out : Option Reader} {one two bytes : List UInt8} {b : UInt8}

theorem Along.append (first : Along r one (some mid)) (second : Along mid two out) : Along r (one ++ two) out := by
  generalize reached : some mid = stop at first
  induction first with
  | done =>
    cases reached
    exact second
  | step unfinished moved _ ih => exact .step unfinished moved (ih reached)
  | stop => cases reached

theorem Along.refused (first : Along r one none) (two : List UInt8) : Along r (one ++ two) none := by
  generalize reached : (none : Option Reader) = stop at first
  induction first with
  | done => cases reached
  | step unfinished moved _ ih => exact .step unfinished moved (ih reached)
  | stop unfinished refused => exact .stop unfinished refused

theorem Along.single (unfinished : r.Unfinished) (moved : (r.advance 0 b).toOption = some next) :
    Along r [b] (some next) :=
  .step unfinished moved .done

theorem Along.result (along : Along r bytes out) (rest : List UInt8) :
    r.result (bytes ++ rest) = out.bind fun next => next.result rest := by
  induction along with
  | done => rfl
  | step _ moved _ ih => rw [List.cons_append, result_cons, moved, Option.bind_some, ih]
  | stop _ refused => rw [List.cons_append, result_cons, refused]; rfl

-- What is cut off on the way reads as nothing.
theorem Along.cut (along : Along r (one ++ two) out) (more : two ≠ []) : r.result one = none := by
  induction one generalizing r with
  | nil =>
    rw [result_nil]
    cases along with
    | done => contradiction
    | step unfinished _ _ => exact unfinished
    | stop unfinished _ => exact unfinished
  | cons b rest ih =>
    rw [result_cons]
    cases along with
    | step _ moved later => rw [moved, Option.bind_some, ih later]
    | stop _ refused => rw [refused]; rfl

-- Octets inside a string.
theorem along_string {s s' : StringReading} (inMode : StringReading → Mode) (enclosing : List Enclosure)
    (unfinished : ∀ s, Unfinished ⟨enclosing, inMode s⟩)
    (inside : ∀ s b next, s.advance b = .more next →
      (advance ⟨enclosing, inMode s⟩ 0 b).toOption = some ⟨enclosing, inMode next⟩)
    (fed : s.feed bytes = some s') : Along ⟨enclosing, inMode s⟩ bytes (some ⟨enclosing, inMode s'⟩) := by
  induction bytes generalizing s with
  | nil =>
    cases fed
    exact .done
  | cons b rest ih =>
    unfold StringReading.feed at fed
    split at fed
    · rename_i next moved
      exact .step (unfinished s) (inside s b next moved) (ih fed)
    · cases fed

end DuplexRpc.Json.Reader
