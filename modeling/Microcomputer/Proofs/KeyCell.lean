import Mathlib.Data.List.Induction
import Microcomputer.Proofs.Confinement
import Microcomputer.Proofs.Loading
import Microcomputer.Proofs.Runs

/-!
The key's cell belongs to the keyboard.

Neither a step nor a push reaches the cell (`read_step_keyAddress`, `read_push_of_reserved`), and a load or a
reset clears it. So after any operations it holds the last key since then: `read_keyAddress_performAll`.
-/

namespace Microcomputer

namespace Processor

namespace Operation

/-- Loads and resets clear the key's cell, whether or not the image is accepted. -/
def clears : Operation → Bool
  | load _ | reset => true
  | _ => false

/-- The key that arrives by the operation. -/
def key? : Operation → Option UInt8
  | event (.press key _) => some key
  | _ => none

/-- The operations since the last load or reset, the latest first. -/
def sinceClear (operations : List Operation) : List Operation :=
  operations.reverse.takeWhile fun o => !o.clears

/-- The last key since the last load or reset, zero if there was none. -/
def lastKey (operations : List Operation) : UInt8 := ((sinceClear operations).findSome? key?).getD 0

theorem lastKey_append (operations : List Operation) (o : Operation) :
    lastKey (operations ++ [o]) = if o.clears then 0 else o.key?.getD (lastKey operations) := by
  unfold lastKey sinceClear
  rw [List.reverse_concat, List.takeWhile_cons]
  cases o.clears with
  | true => rfl
  | false =>
    rw [Bool.not_false, if_pos rfl, List.findSome?_cons]
    cases o.key? <;> rfl

end Operation

theorem reserved_keyAddress (p : Processor) : p.Reserved keyAddress := .inr (by decide)

/-- No step writes the key's cell. -/
theorem read_step_keyAddress (p : Processor) :
    p.step.processor.memory.read keyAddress = p.memory.read keyAddress := by
  by_contra hne
  rcases changed_cases hne with ⟨_, _, _, _, _, hkey⟩ | ⟨s, v, q, _, hok, hsp⟩
  · exact hkey rfl
  · obtain ⟨-, -, hhigh, -⟩ := push_confined hok
    rw [hsp] at hhigh
    exact absurd hhigh (by decide)

/-- What an operation leaves in the key's cell. -/
theorem read_keyAddress_perform (p : Processor) (o : Operation) :
    (p.perform o).memory.read keyAddress =
      if o.clears then 0 else o.key?.getD (p.memory.read keyAddress) := by
  cases o with
  | event e =>
    cases e with
    | step => exact p.read_step_keyAddress
    | raise line => rfl
    | press key line =>
      show (p.press key line).memory.read keyAddress = key
      rw [read_press, if_pos rfl]
  | load image => exact p.read_load_of_reserved image (by decide)
  | reset => exact Memory.read_clear _ _
  | run max out =>
    have hstep (q : Processor) (hq : q.memory.read keyAddress = p.memory.read keyAddress) :
        q.step.processor.memory.read keyAddress = p.memory.read keyAddress :=
      q.read_step_keyAddress.trans hq
    exact perform_run_keeps hstep max out rfl
  | push v =>
    show (p.perform (.push v)).memory.read keyAddress = p.memory.read keyAddress
    rw [perform]
    rcases hpush : p.push v with ⟨q, _ | f⟩
    · exact read_push_of_reserved hpush p.reserved_keyAddress
    · rw [eq_of_push_refused hpush]
  | pop =>
    show (p.perform .pop).memory.read keyAddress = p.memory.read keyAddress
    rw [perform]
    rcases hpop : p.pop with ⟨q, f | v⟩
    · rw [eq_of_pop_refused hpop]
    · obtain ⟨-, rfl, -⟩ := eq_of_pop hpop
      rfl

/-- Whatever is done to a processor from power-on on, and whatever programs run, the key's cell holds the last
key since the last load or reset. -/
theorem read_keyAddress_performAll (operations : List Operation) :
    (powerOn.performAll operations).memory.read keyAddress = Operation.lastKey operations := by
  induction operations using List.reverseRecOn with
  | nil => exact Memory.read_zero _
  | append_singleton operations o ih =>
    rw [performAll_append, read_keyAddress_perform, ih, Operation.lastKey_append]

/-- A push leaves the key alone, and a load clears it. -/
example :
    (powerOn.performAll [.event (.press 65 1), .push 7]).memory.read keyAddress = 65 ∧
      (powerOn.performAll [.event (.press 65 1), .push 7, .load [1]]).memory.read keyAddress = 0 :=
  ⟨rfl, rfl⟩

end Processor

end Microcomputer
