import Microcomputer.Proofs.StackBounds

/-!
The stack of a loaded image is a bounded list of bytes.

* `stackBytes` reads the list off the processor: the cells from the pointer to the last slot of the stack.
  `stackBytes_push` and `stackBytes_pop` say what the two calls do to it.
* `BoundedStack` is the list by itself, and `callAll` the replies to calls made one after the other.
* `StandsFor.call`: a call on the processor and the same call on the list reply alike and stay in step.
* `stack_refines_list` follows any calls on an image that has just been loaded.
-/

namespace Microcomputer

/-! ## The list in memory -/

namespace Processor

/-- The bytes on the stack, the last one pushed first: the cells from the pointer to the last slot. -/
def stackBytes (p : Processor) : List UInt8 := (addressRange p.sp 0xF2).map p.memory.read

section

variable {p q : Processor} {v : UInt8}

theorem length_stackBytes (p : Processor) : p.stackBytes.length = p.stackDepth := by
  simp only [stackBytes, addressRange, List.length_map, List.length_range]
  rfl

theorem stackBytes_push (h : p.push v = (q, none)) : q.stackBytes = v :: p.stackBytes := by
  obtain ⟨hdown, -, hhigh, hwrite⟩ := push_confined h
  have htop : stackTop.toNat = 0xF3 := rfl
  have hlast : (0xF2 : UInt8).toNat = 0xF2 := rfl
  have hup : q.sp + 1 = p.sp := by
    rw [sp_of_push h]
    exact UInt8.sub_add_cancel _ _
  -- The cells of the older bytes are those above the new pointer.
  have hold : ∀ a ∈ addressRange p.sp 0xF2, q.memory.read a = p.memory.read a := by
    intro a ha
    have hne : q.sp ≠ a := by
      rintro rfl
      have hbounds := mem_addressRange.mp ha
      omega
    rw [hwrite, Memory.read_write, if_neg hne]
  have hnew : q.memory.read q.sp = v := by
    rw [hwrite]
    exact Memory.read_write_self _ _ _
  rw [stackBytes, addressRange_cons (by omega) (by decide), hup, List.map_cons, hnew, stackBytes,
    List.map_congr_left hold]

theorem stackBytes_pop (h : p.pop = (q, .ok v)) : p.stackBytes = v :: q.stackBytes := by
  obtain ⟨hdepth, rfl, rfl⟩ := eq_of_pop h
  have hhigh := (p.le_stackDepth_iff (by decide)).mp hdepth
  have hlast : (0xF2 : UInt8).toNat = 0xF2 := rfl
  rw [stackBytes, addressRange_cons (by omega) (by decide), List.map_cons, stackBytes, sp_setSp]
  rfl

end

end Processor

/-! ## The list by itself -/

/-- What may be asked of a stack from outside. -/
inductive StackCall
  | push (v : UInt8)
  | pop
  deriving DecidableEq, Repr

/-- The reply to a call: the byte that a pop takes, or the fault that refuses the call. -/
abbrev StackReply := Except Fault (Option UInt8)

/-- Calls made one after the other: the state that they lead to, and the replies. -/
def callAll {σ : Type} (call : σ → StackCall → σ × StackReply) (s : σ) :
    List StackCall → σ × List StackReply
  | [] => (s, [])
  | c :: rest =>
    let (next, reply) := call s c
    let (last, replies) := callAll call next rest
    (last, reply :: replies)

/-- Two states that every call keeps related, with the same reply, stay so under any calls. -/
theorem callAll_related {σ τ : Type} {f : σ → StackCall → σ × StackReply}
    {g : τ → StackCall → τ × StackReply} {R : σ → τ → Prop}
    (hcall : ∀ s t c, R s t → R (f s c).1 (g t c).1 ∧ (f s c).2 = (g t c).2)
    {s : σ} {t : τ} (h : R s t) (calls : List StackCall) :
    R (callAll f s calls).1 (callAll g t calls).1 ∧ (callAll f s calls).2 = (callAll g t calls).2 := by
  induction calls generalizing s t with
  | nil => exact ⟨h, rfl⟩
  | cons c rest ih =>
    obtain ⟨hnext, hreply⟩ := hcall s t c h
    obtain ⟨hlast, hreplies⟩ := ih hnext
    simp only [callAll]
    rw [hreply, hreplies]
    exact ⟨hlast, rfl⟩

/-- A stack of so many bytes at most, the last one pushed first. -/
structure BoundedStack (capacity : Nat) where
  bytes : List UInt8
  fits : bytes.length ≤ capacity

namespace BoundedStack

variable {capacity : Nat}

def empty (capacity : Nat) : BoundedStack capacity := ⟨[], Nat.zero_le _⟩

/-- The address of the last byte pushed, on a stack that grows down from its first slot. -/
def pointer (s : BoundedStack capacity) : UInt8 := stackTop - UInt8.ofNat s.bytes.length

/-- A full stack refuses a push and an empty one a pop. -/
def call (s : BoundedStack capacity) : StackCall → BoundedStack capacity × StackReply
  | .push v =>
    if h : s.bytes.length < capacity then (⟨v :: s.bytes, h⟩, .ok none)
    else (s, .error (.stackOverflow s.pointer))
  | .pop =>
    match s with
    | ⟨[], _⟩ => (s, .error (.stackUnderflow s.pointer))
    | ⟨v :: rest, h⟩ => (⟨rest, Nat.le_of_succ_le h⟩, .ok (some v))

end BoundedStack

/-! ## One call -/

namespace Processor

/-- The same calls on the processor. -/
def call (p : Processor) : StackCall → Processor × StackReply
  | .push v =>
    match p.push v with
    | (q, none) => (q, .ok none)
    | (q, some f) => (q, .error f)
  | .pop => (p.pop.1, p.pop.2.map some)

section

variable {capacity : Nat} {loaded p : Processor} {s : BoundedStack capacity}

/-- The processor is as it was when its image was loaded, but for the stack. The stack holds what `s` holds,
and has room for as much. -/
structure StandsFor (p loaded : Processor) (s : BoundedStack capacity) : Prop where
  onStack : p.OnStack
  bytes : p.stackBytes = s.bytes
  ends : p.programEnd.toNat + capacity = 0xF3
  beside : ∃ sp m, p = { loaded.setSp sp with memory := m }
  reserved : ∀ a, loaded.Reserved a → p.memory.read a = loaded.memory.read a

theorem beside_setSp (h : ∃ sp m, p = { loaded.setSp sp with memory := m }) (v : UInt8) (n : Memory) :
    ∃ sp m, { p.setSp v with memory := n } = { loaded.setSp sp with memory := m } := by
  obtain ⟨sp, m, rfl⟩ := h
  refine ⟨v, n, ?_⟩
  rw [← loaded.setSp_setSp sp v]
  rfl

theorem StandsFor.stackDepth (h : p.StandsFor loaded s) : p.stackDepth = s.bytes.length := by
  rw [← length_stackBytes, h.bytes]

theorem StandsFor.stackRoom (h : p.StandsFor loaded s) : p.stackRoom = capacity - s.bytes.length := by
  have hsum := h.onStack.depth_add_room
  have hends := h.ends
  rw [h.stackDepth] at hsum
  omega

theorem StandsFor.sp (h : p.StandsFor loaded s) : p.sp = s.pointer := by
  have hdepth := h.stackDepth
  have hhigh := h.onStack.high
  have htop : stackTop.toNat = 0xF3 := rfl
  unfold Processor.stackDepth at hdepth
  rw [BoundedStack.pointer, ← hdepth]
  apply UInt8.toNat_inj.mp
  rw [UInt8.toNat_sub, UInt8.toNat_ofNat']
  omega

theorem standsFor_empty (p : Processor) {image : List UInt8} (hfits : image.length ≤ 243) :
    (p.load image).1.StandsFor (p.load image).1 (.empty (243 - image.length)) := by
  have hresult : (p.load image).2 = .ok () := by rw [load_of_fits p hfits]
  have hload : p.load image = ((p.load image).1, .ok ()) := Prod.ext rfl hresult
  obtain ⟨hstack, hend⟩ := onStack_of_load hload
  have hsp : (p.load image).1.sp = stackTop := by
    rw [load_of_fits p hfits]
    rfl
  refine ⟨hstack, ?_, by omega, ⟨_, _, (setSp_sp _).symm⟩, fun _ _ => rfl⟩
  rw [stackBytes, hsp]
  rfl

/-- A push on the processor is a push on the list. -/
theorem StandsFor.push (h : p.StandsFor loaded s) (v : UInt8) :
    (p.call (.push v)).1.StandsFor loaded (s.call (.push v)).1 ∧
      (p.call (.push v)).2 = (s.call (.push v)).2 := by
  have hroom := h.stackRoom
  simp only [Processor.call, BoundedStack.call]
  rcases Nat.eq_zero_or_pos p.stackRoom with hfull | hfree
  · rw [push_of_full hfull, dif_neg (by omega), h.sp]
    exact ⟨h, rfl⟩
  · obtain ⟨q, hpush⟩ : ∃ q, p.push v = (q, none) := ⟨_, if_neg (Nat.ne_of_gt hfree)⟩
    have hq := (eq_of_push hpush).2
    have hend : q.programEnd = p.programEnd := by
      rw [hq]
      rfl
    have hloaded : p.programEnd = loaded.programEnd := by
      obtain ⟨sp, m, rfl⟩ := h.beside
      rfl
    have hbeside : ∃ sp m, q = { loaded.setSp sp with memory := m } := by
      rw [hq]
      exact beside_setSp h.beside _ _
    rw [hpush, dif_pos (by omega)]
    refine ⟨⟨onStack_of_push hpush, ?_, ?_, hbeside, ?_⟩, rfl⟩
    · rw [stackBytes_push hpush, h.bytes]
    · rw [hend]
      exact h.ends
    · intro a ha
      have hreserved : p.Reserved a := by
        rw [Reserved, hloaded]
        exact ha
      rw [read_push_of_reserved hpush hreserved]
      exact h.reserved a ha

/-- A pop on the processor is a pop on the list. -/
theorem StandsFor.pop (h : p.StandsFor loaded s) :
    (p.call .pop).1.StandsFor loaded (s.call .pop).1 ∧ (p.call .pop).2 = (s.call .pop).2 := by
  have hdepth := h.stackDepth
  have hsp := h.sp
  simp only [Processor.call]
  rcases Nat.eq_zero_or_pos p.stackDepth with hnone | hsome
  · rw [pop_of_empty hnone]
    obtain ⟨bytes, hfits⟩ := s
    cases bytes with
    | nil =>
      rw [hsp]
      exact ⟨h, rfl⟩
    | cons v rest => simp [hnone] at hdepth
  · obtain ⟨q, v, hpop⟩ : ∃ q v, p.pop = (q, .ok v) := ⟨_, _, if_neg (Nat.ne_of_gt hsome)⟩
    rw [hpop]
    have hbytes := stackBytes_pop hpop
    rw [h.bytes] at hbytes
    obtain ⟨bytes, hfits⟩ := s
    cases hbytes
    obtain ⟨-, rfl, -⟩ := eq_of_pop hpop
    exact ⟨⟨h.onStack.pop hpop, rfl, h.ends, beside_setSp h.beside _ _, h.reserved⟩, rfl⟩

theorem StandsFor.call (h : p.StandsFor loaded s) (c : StackCall) :
    (p.call c).1.StandsFor loaded (s.call c).1 ∧ (p.call c).2 = (s.call c).2 := by
  cases c with
  | push v => exact h.push v
  | pop => exact h.pop

end

/-! ## Any calls -/

/-- Whatever pushes and pops are asked of an image that has just been loaded, the replies are those of a list
that holds what is left of 243 bytes beside the image. The list is the cells from the pointer up to the last
slot, and its length and free capacity are the stack's depth and room. A push is refused exactly when the list
is full and a pop exactly when it is empty, and then nothing changes at all. No call changes anything but the
pointer and cells between the image and the stack's first slot. -/
theorem stack_refines_list (p : Processor) {image : List UInt8} (hfits : image.length ≤ 243)
    (calls : List StackCall) :
    let loaded := (p.load image).1
    let q := (callAll call loaded calls).1
    let s := (callAll BoundedStack.call (.empty (243 - image.length)) calls).1
    (callAll call loaded calls).2 =
        (callAll BoundedStack.call (.empty (243 - image.length)) calls).2 ∧
      q.stackBytes = s.bytes ∧
      (q.stackDepth = s.bytes.length ∧ q.stackRoom = 243 - image.length - s.bytes.length) ∧
      (∀ v f, (q.push v).2 = some f ↔
        s.bytes.length = 243 - image.length ∧ f = .stackOverflow q.sp) ∧
      (∀ f, q.pop.2 = .error f ↔ s.bytes = [] ∧ f = .stackUnderflow q.sp) ∧
      (∀ c f, (q.call c).2 = .error f → (q.call c).1 = q) ∧
      (∃ sp m, q = { loaded.setSp sp with memory := m }) ∧
      ∀ a, a.toNat < image.length ∨ 0xF3 ≤ a.toNat →
        q.memory.read a = (image[a.toNat]?).getD 0 := by
  intro loaded q s
  obtain ⟨hstands, hreplies⟩ :=
    callAll_related (R := fun (q : Processor) s => q.StandsFor loaded s)
      (fun _ _ c h => h.call c) (standsFor_empty p hfits) calls
  have hdepth : q.stackDepth = s.bytes.length := hstands.stackDepth
  have hroom : q.stackRoom = 243 - image.length - s.bytes.length := hstands.stackRoom
  have hbound := s.fits
  refine ⟨hreplies, hstands.bytes, ⟨hdepth, hroom⟩, ?_, ?_, ?_, hstands.beside, ?_⟩
  · intro v f
    rw [push_refused_iff, hroom]
    constructor
    · rintro ⟨hfull, rfl⟩
      exact ⟨by omega, rfl⟩
    · rintro ⟨hfull, rfl⟩
      exact ⟨by omega, rfl⟩
  · intro f
    rw [pop_refused_iff, hdepth, List.length_eq_zero_iff]
  · intro c f hrefused
    cases c with
    | push v =>
      simp only [call] at hrefused ⊢
      rcases hpush : q.push v with ⟨r, _ | g⟩
      · simp [hpush] at hrefused
      · exact eq_of_push_refused hpush
    | pop =>
      simp only [call] at hrefused ⊢
      rcases hpop : q.pop with ⟨r, g | v⟩
      · exact eq_of_pop_refused hpop
      · simp [hpop, Except.map] at hrefused
  · intro a ha
    have hends : loaded.programEnd.toNat + (243 - image.length) = 0xF3 :=
      (standsFor_empty p hfits).ends
    have hend : loaded.programEnd.toNat = image.length := by omega
    have hreserved : loaded.Reserved a := by
      rw [Reserved, hend]
      exact ha
    rw [hstands.reserved a hreserved]
    exact read_load_of_fits p hfits a

/-- Two cells are left beside the image. -/
def confined : List UInt8 := List.replicate 241 0

theorem confined_refuses :
    confined.length ≤ 243 ∧
      (callAll call (powerOn.load confined).1
          [.pop, .push 1, .push 2, .push 3, .pop, .push 4, .pop, .pop, .pop]).2 =
        [.error (.stackUnderflow 0xF3), .ok none, .ok none, .error (.stackOverflow 0xF1), .ok (some 2),
          .ok none, .ok (some 4), .ok (some 1), .error (.stackUnderflow 0xF3)] := by
  have hlength : confined.length = 241 := List.length_replicate
  have hfits : confined.length ≤ 243 := by omega
  obtain ⟨hreplies, -⟩ := stack_refines_list powerOn hfits
    [.pop, .push 1, .push 2, .push 3, .pop, .push 4, .pop, .pop, .pop]
  have hleft : 243 - confined.length = 2 := by omega
  refine ⟨hfits, hreplies.trans ?_⟩
  rw [hleft]
  rfl

end Processor

end Microcomputer
