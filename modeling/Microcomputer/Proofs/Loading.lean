import Microcomputer.Processor.Basic

/-!
What loading an image leaves in memory: the image's bytes from address 0 on and zero in every other cell, or
nothing but zeros if the image does not fit.
-/

namespace Microcomputer

namespace Memory

/-- A cell holds the byte that was written at its distance above `a`, or what it held before. -/
theorem read_writeAll (m : Memory) (a b : UInt8) (bytes : List UInt8) (h : bytes.length ≤ 256) :
    (m.writeAll a bytes).read b = (bytes[(b - a).toNat]?).getD (m.read b) := by
  induction bytes generalizing m a with
  | nil => rfl
  | cons v rest ih =>
    rw [List.length_cons] at h
    rw [writeAll, ih _ _ (by omega), read_write]
    by_cases hb : a = b
    · subst hb
      have hlast : (a - (a + 1)).toNat = 255 := by
        rw [show a - (a + 1) = 255 by grind]
        rfl
      have hself : (a - a).toNat = 0 := by
        rw [UInt8.sub_self]
        rfl
      rw [hlast, hself, List.getElem?_eq_none (by omega)]
      simp
    · have hne : a.toNat ≠ b.toNat := fun e => hb (UInt8.toNat_inj.mp e)
      have hstep : (b - a).toNat = (b - (a + 1)).toNat + 1 := by
        have := a.toNat_lt
        have := b.toNat_lt
        have : (1 : UInt8).toNat = 1 := rfl
        rw [UInt8.toNat_sub b a, UInt8.toNat_sub b (a + 1), UInt8.toNat_add]
        omega
      rw [hstep, List.getElem?_cons_succ, if_neg hb]

theorem surplus_writeAll (m : Memory) (a : UInt8) (bytes : List UInt8) :
    (m.writeAll a bytes).surplus = m.surplus := by
  induction bytes generalizing m a with
  | nil => rfl
  | cons v rest ih => rw [writeAll, ih, surplus_write]

/-- An image that is accepted fills the cells from address 0 on. -/
theorem read_load {m loaded : Memory} {image : List UInt8} (h : m.load image = .ok loaded) (a : UInt8) :
    image.length ≤ maxImageSize ∧ loaded.read a = (image[a.toNat]?).getD (m.read a) := by
  have hmax : maxImageSize = 0xF3 := rfl
  unfold load at h
  split at h
  · cases h
  · next hsize =>
    cases h
    refine ⟨by omega, ?_⟩
    rw [read_writeAll _ _ _ _ (by omega), UInt8.sub_zero]

end Memory

namespace Processor

theorem load_of_fits (p : Processor) {image : List UInt8} (h : image.length ≤ 243) :
    p.load image =
      ({ p.reset with
          memory := p.reset.memory.writeAll 0 image
          programEnd := UInt8.ofNat image.length }, .ok ()) := by
  have hmax : maxImageSize = 243 := rfl
  have hload : p.reset.memory.load image = .ok (p.reset.memory.writeAll 0 image) := if_neg (by omega)
  rw [load, hload]

theorem load_of_large (p : Processor) {image : List UInt8} (h : 243 < image.length) :
    p.load image = (p.reset, .error ⟨image.length⟩) := by
  have hmax : maxImageSize = 243 := rfl
  have hload : p.reset.memory.load image = .error ⟨image.length⟩ := if_pos (by omega)
  rw [load, hload]

/-- An image that fits stands from address 0 on, and every other cell is zero. -/
theorem read_load_of_fits (p : Processor) {image : List UInt8} (h : image.length ≤ 243) (a : UInt8) :
    (p.load image).1.memory.read a = (image[a.toNat]?).getD 0 := by
  rw [load_of_fits p h]
  show (p.reset.memory.writeAll 0 image).read a = _
  rw [Memory.read_writeAll _ _ _ _ (by omega), UInt8.sub_zero]
  exact congrArg (Option.getD _) (Memory.read_clear _ _)

/-- Whether or not the image fits, loading leaves the stack's first slot and every cell above it zero. -/
theorem read_load_of_reserved (p : Processor) (image : List UInt8) {a : UInt8}
    (ha : stackTop.toNat ≤ a.toNat) : (p.load image).1.memory.read a = 0 := by
  have hclear : p.reset.memory.read a = 0 := Memory.read_clear _ _
  unfold load
  split
  · next loaded hload =>
    obtain ⟨hsize, hread⟩ := Memory.read_load hload a
    have hmax : maxImageSize = stackTop.toNat := rfl
    show loaded.read a = 0
    rw [hread, List.getElem?_eq_none (by omega), Option.getD_none, hclear]
  · exact hclear

end Processor

end Microcomputer
