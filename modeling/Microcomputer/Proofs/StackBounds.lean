import Microcomputer.Proofs.Confinement
import Microcomputer.Proofs.Loading

/-!
The pointer stays on the stack.

`OnStack` says that it stands between the end of the image and the stack's first slot. Every step keeps it
there that leaves the pointer to the stack instructions and takes back only contexts that an interrupt saved
where they are taken back from: `onStack_step`. `pointer_bounded` follows whole runs of a loaded image, in
which steps may fail.
-/

namespace Microcomputer

/-- The register that an instruction names as its destination. -/
def Instruction.target? {ρ : Type} : Instruction ρ → Option ρ
  | loadImmediate r _ | load r _ | addImmediate r _ | pop r => some r
  | alu op r _ => if op = .cmp then none else some r
  | _ => none

namespace Processor

/-- The pointer stands between the end of the image and the stack's first slot. -/
structure OnStack (p : Processor) : Prop where
  low : p.programEnd.toNat ≤ p.sp.toNat
  high : p.sp.toNat ≤ 0xF3

/-- What an event may not do to the pointer: a completed instruction does not name it as its destination, and
a return from an interrupt that finds ten bytes finds the pointer that was saved there as the last of them. -/
def SparesPointer (p : Processor) : Event → Prop
  | .step =>
    (∀ i printed done, p.Completes i printed done → i.target? ≠ some .stackPointer) ∧
      (p.state = .running → p.memory.decodeAt p.pc = .ok .interruptReturn → 10 ≤ p.stackDepth →
        p.memory.read p.sp = p.sp + 1)
  | _ => True

section

variable {p q done : Processor} {i : Instruction Register} {printed : Option Printed}

theorem OnStack.congr (h : p.OnStack) (hsp : q.sp = p.sp) (hend : q.programEnd = p.programEnd) :
    q.OnStack := by
  refine ⟨?_, ?_⟩
  · rw [hsp, hend]
    exact h.low
  · rw [hsp]
    exact h.high

theorem OnStack.setRegister (h : p.OnStack) {r : Register} (hr : r ≠ .stackPointer) (v : UInt8) :
    (p.setRegister r v).OnStack :=
  h.congr ((RegisterFile.get_set _ _ _ _).trans (if_neg hr)) rfl

/-- A push finds room only above the image. -/
theorem onStack_of_push {v : UInt8} (h : p.push v = (q, none)) : q.OnStack := by
  obtain ⟨-, hlow, hhigh, -⟩ := push_confined h
  have htop : stackTop.toNat = 0xF3 := rfl
  have hend : q.programEnd = p.programEnd := by
    obtain ⟨-, rfl⟩ := eq_of_push h
    rfl
  refine ⟨?_, by omega⟩
  rw [hend]
  exact hlow

/-- A pop finds a byte only below the stack's first slot. -/
theorem OnStack.pop {v : UInt8} (h : p.OnStack) (hpop : p.pop = (q, .ok v)) : q.OnStack := by
  obtain ⟨hdepth, rfl, -⟩ := eq_of_pop hpop
  have hhigh := (p.le_stackDepth_iff (by decide)).mp hdepth
  have hlow := h.low
  have hone : (1 : UInt8).toNat = 1 := rfl
  have hsp : (p.setSp (p.sp + 1)).sp.toNat = p.sp.toNat + 1 := by
    rw [sp_setSp, UInt8.toNat_add]
    omega
  refine ⟨?_, by omega⟩
  rw [hsp]
  exact Nat.le_succ_of_le hlow

/-- Ten bytes are taken back through a pointer that was saved as the last of them. -/
theorem OnStack.restoreContext (h : p.OnStack) (hdepth : 10 ≤ p.stackDepth)
    (hsaved : p.memory.read p.sp = p.sp + 1) :
    p.restoreContext.2 = none ∧ p.restoreContext.1.OnStack := by
  have hhigh := (p.le_stackDepth_iff (by decide)).mp hdepth
  have hlow := h.low
  have hone : (1 : UInt8).toNat = 1 := rfl
  have hnine : (9 : UInt8).toNat = 9 := rfl
  have hnext : (p.memory.read p.sp).toNat = p.sp.toNat + 1 := by
    rw [hsaved, UInt8.toNat_add]
    omega
  -- The first pop takes the pointer itself back, and the other nine go on from there.
  obtain ⟨hok, hback, -⟩ := p.restoreContext_spec hdepth (by omega)
  have hsp : p.restoreContext.1.sp.toNat = p.sp.toNat + 10 := by
    rw [hback, UInt8.toNat_add]
    omega
  have hend : p.restoreContext.1.programEnd = p.programEnd := by
    rw [(sameBesideRegisters_restoreContext p).eq]
  refine ⟨hok, ?_, by omega⟩
  rw [hend]
  omega

/-- An instruction that completes leaves the pointer on the stack. -/
theorem OnStack.execute {next : UInt8} (h : p.OnStack) (hexec : p.execute i = .completed q next printed)
    (htarget : i.target? ≠ some .stackPointer)
    (hreturn : i = .interruptReturn → 10 ≤ p.stackDepth → p.memory.read p.sp = p.sp + 1) :
    q.OnStack := by
  have hset {r : Register} (hr : i.target? = some r) (v : UInt8) : (p.setRegister r v).OnStack :=
    h.setRegister (fun e => htarget (e ▸ hr)) v
  cases i with
  | nop | halt | jump | interrupt | printNumber | printChar | printText =>
    cases hexec
    exact h.congr rfl rfl
  | loadImmediate | load | addImmediate =>
    cases hexec
    exact hset rfl _
  | store address source =>
    obtain ⟨rfl, -⟩ := store_of_completed hexec
    split
    all_goals exact h.congr rfl rfl
  | alu op target source =>
    obtain ⟨⟨v, hv, rfl⟩ | ⟨f, -, rfl⟩, -⟩ := alu_of_completed hexec
    · have hop : op ≠ .cmp := by
        rintro rfl
        cases hv
      exact hset (if_neg hop) v
    · exact h.congr rfl rfl
  | push source => exact onStack_of_push (push_of_completed hexec).1
  | call address => exact onStack_of_push (call_of_completed hexec).1
  | pop target =>
    obtain ⟨v, r, hpop, rfl, -⟩ := pop_of_completed hexec
    exact (h.pop hpop).setRegister (fun e => htarget (e ▸ rfl)) _
  | ret => exact h.pop (ret_of_completed hexec).1
  | interruptReturn =>
    obtain ⟨r, hr, rfl, -⟩ := interruptReturn_of_completed hexec
    obtain ⟨hdepth, -⟩ := p.restoreContext_eq_none_iff.mp (congrArg Prod.snd hr)
    obtain ⟨-, hback⟩ := h.restoreContext hdepth (hreturn rfl hdepth)
    rw [hr] at hback
    exact hback.congr rfl rfl

/-- An instruction that fails leaves the pointer where it was. A return from an interrupt that finds ten
bytes does not fail. -/
theorem OnStack.failed {f : Fault} (h : p.OnStack) (hexec : p.execute i = .failed q f)
    (hreturn : i = .interruptReturn → 10 ≤ p.stackDepth → p.memory.read p.sp = p.sp + 1) :
    q.OnStack := by
  by_cases hi : i = .interruptReturn
  · subst hi
    have hr := interruptReturn_of_failed hexec
    rcases Nat.lt_or_ge p.stackDepth 10 with hshallow | hdepth
    · rw [restoreContext_of_shallow hshallow] at hr
      cases hr
      exact h
    · obtain ⟨hok, -⟩ := h.restoreContext hdepth (hreturn rfl hdepth)
      rw [hr] at hok
      cases hok
  · rw [eq_of_failed hexec hi]
    exact h

/-- A context is saved only where it fits. -/
theorem OnStack.entered (h : p.OnStack) (hroom : 10 ≤ p.stackRoom) (line : UInt8) :
    (p.entered line).OnStack := by
  obtain ⟨-, hend⟩ := (p.le_stackRoom_iff (by decide)).mp hroom
  have hhigh := h.high
  have hten : (10 : UInt8).toNat = 10 := rfl
  have hsp : (p.entered line).sp.toNat = p.sp.toNat - 10 := by
    show (p.setSp (p.sp - 10)).sp.toNat = _
    rw [sp_setSp, UInt8.toNat_sub_of_le _ _ (UInt8.le_iff_toNat_le.mpr (by omega)), hten]
  refine ⟨?_, by omega⟩
  rw [hsp]
  show p.programEnd.toNat ≤ _
  omega

theorem onStack_step (h : p.OnStack) (hspares : p.SparesPointer .step) : p.step.processor.OnStack := by
  obtain ⟨htarget, hreturn⟩ := hspares
  have hdone {i printed done} (hc : p.Completes i printed done) : done.OnStack := by
    obtain ⟨hrun, hdecode, q, next, hexec, rfl⟩ := id hc
    have hq := h.execute hexec (htarget _ _ _ hc) fun hi => hreturn hrun (hi ▸ hdecode)
    exact hq.congr rfl rfl
  have hstep := p.outcome_step
  generalize p.step = outcome at hstep
  cases hstep with
  | stopped => exact h
  | undecoded => exact h.congr rfl rfl
  | failed run decode execute =>
    have hq := h.failed execute fun hi => hreturn run (hi ▸ decode)
    exact hq.congr rfl rfl
  | idle completes => exact hdone completes
  | served completes serves room => exact (hdone completes).entered room _
  | unserved completes => exact (hdone completes).congr rfl rfl

theorem programEnd_step (p : Processor) : p.step.processor.programEnd = p.programEnd := by
  have hstep := p.outcome_step
  generalize p.step = outcome at hstep
  cases hstep with
  | stopped | undecoded => rfl
  | @failed i q f run decode execute =>
    show q.programEnd = p.programEnd
    rw [(sameBesideRegisters_of_failed execute).eq]
  | idle completes | served completes | unserved completes =>
    have hend := programEnd_of_completes completes
    exact hend

theorem OnStack.depth_add_room (h : p.OnStack) :
    p.stackDepth + p.stackRoom = 0xF3 - p.programEnd.toNat := by
  obtain ⟨hlow, hhigh⟩ := h
  have htop : stackTop.toNat = 0xF3 := rfl
  have hnot : ¬stackTop < p.sp := by
    rw [UInt8.lt_iff_toNat_lt]
    omega
  rw [stackDepth, stackRoom, if_neg hnot]
  omega

end

/-- An image that loads leaves the stack empty, and its length is the end of the image. -/
theorem onStack_of_load {p loaded : Processor} {image : List UInt8}
    (h : p.load image = (loaded, .ok ())) : loaded.OnStack ∧ loaded.programEnd.toNat = image.length := by
  unfold load at h
  split at h
  · next memory hmemory =>
    cases h
    obtain ⟨hsize, -⟩ := Memory.read_load hmemory 0
    have hmax : maxImageSize = 0xF3 := rfl
    have hend : (UInt8.ofNat image.length).toNat = image.length := by
      rw [UInt8.toNat_ofNat']
      omega
    refine ⟨⟨?_, Nat.le_refl _⟩, hend⟩
    show (UInt8.ofNat image.length).toNat ≤ 0xF3
    omega
  · cases h

/-- However long an image has run whose steps spare the pointer, and whether or not they succeed, the pointer
stands between the end of the image and the stack's first slot, and depth and room make up what lies between
these. -/
theorem pointer_bounded {p loaded : Processor} {image : List UInt8}
    (hload : p.load image = (loaded, .ok ())) {events pre : List Event}
    (hspares : loaded.Along after SparesPointer events) (hpre : pre <+: events) :
    let q := loaded.afterAll pre
    q.programEnd.toNat = image.length ∧ q.programEnd.toNat ≤ q.sp.toNat ∧ q.sp.toNat ≤ 0xF3 ∧
      q.stackDepth + q.stackRoom = 0xF3 - q.programEnd.toNat := by
  obtain ⟨hstack, hend⟩ := onStack_of_load hload
  obtain ⟨post, rfl⟩ := hpre
  have hkept := (along_append.mp hspares).1.keeps
    (P := fun q => q.OnStack ∧ q.programEnd.toNat = image.length) ?_ ⟨hstack, hend⟩
  · obtain ⟨hq, hend⟩ := hkept
    exact ⟨hend, hq.low, hq.high, hq.depth_add_room⟩
  · rintro q e ⟨hq, hend⟩ he
    cases e with
    | step =>
      refine ⟨onStack_step hq he, ?_⟩
      show q.step.processor.programEnd.toNat = _
      rw [programEnd_step]
      exact hend
    | raise line => exact ⟨hq.congr rfl rfl, hend⟩
    | press key line => exact ⟨hq.congr rfl rfl, hend⟩

theorem sparesPointer_of_decode {p : Processor} {i : Instruction Register}
    (hdecode : p.memory.decodeAt p.pc = .ok i) (htarget : i.target? ≠ some .stackPointer)
    (hreturn : i = .interruptReturn → p.memory.read p.sp = p.sp + 1) : p.SparesPointer .step := by
  refine ⟨?_, ?_⟩
  · rintro i' printed done ⟨-, hdecode', -⟩
    rw [hdecode] at hdecode'
    cases hdecode'
    exact htarget
  · intro _ hdecode' _
    rw [hdecode] at hdecode'
    exact hreturn (Except.ok.inj hdecode')

/-- The image sets the vector of line 1 and lets the line through, pushes, pops, and returns from no call.
The handler returns at once. -/
def balanced : List UInt8 :=
  [0x82, 0, 0xF9, 0x82, 1, 18, 0x84, 0, 1, 0x82, 5, 2, 0x45, 5, 0x46, 0, 0x11, 0, 0x13]

/-- A key is served after the push. The last step fails. -/
def balancing : List Event :=
  [.step, .step, .step, .step, .press 65 1, .step, .step, .step, .step]

theorem balanced_bounded :
    let q := (powerOn.load balanced).1.afterAll balancing
    q.fault = some (.stackUnderflow 0xF3) ∧ q.programEnd.toNat = 19 ∧ q.sp.toNat ≤ 0xF3 ∧
      q.stackDepth + q.stackRoom = 0xF3 - q.programEnd.toNat := by
  have hspares : (powerOn.load balanced).1.Along after SparesPointer balancing := by
    refine ⟨?_, ?_, ?_, ?_, trivial, ?_, ?_, ?_, ?_, trivial⟩
    all_goals exact sparesPointer_of_decode rfl (by decide) (by decide)
  have hload : powerOn.load balanced = ((powerOn.load balanced).1, .ok ()) := rfl
  obtain ⟨hend, -, hhigh, hsum⟩ := pointer_bounded hload hspares (List.prefix_refl _)
  exact ⟨rfl, hend, hhigh, hsum⟩

end Processor

end Microcomputer
