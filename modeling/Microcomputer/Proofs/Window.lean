import Microcomputer.Debugger.Window
import Microcomputer.Proofs.Execution
import Mathlib.Data.List.Chain

/-!
The disassembly around the program counter.

* `sweep_eq` and `sweep_end` open the sweep by one entry, `shows_of_mem_sweep`, `isChain_sweep` and
  `pairwise_sweep` say what its entries show and where each of them stands.
* `sweep_reaches` carries the window: a sweep that starts at or below the program counter comes to it, because
  no entry is followed by an address past it.
* `disassemblyWindow_eq` cuts the window out of the sweep, around the current entry.
* `window_around_current` states what a window shows.
-/

namespace Microcomputer

/-! ## Entries -/

/-- The text is what the disassembly gives at the address, and the program counter alone is marked. -/
structure WindowLine.Shows (l : WindowLine) (m : Memory) (pc : UInt8) : Prop where
  text : l.text = (m.disassembleAt l.address).1
  marked : l.isCurrent = true ↔ l.address = pc

namespace Memory

/-- The next entry stands behind the last byte of this one, or at the program counter if one of those bytes
stands there. -/
def Follows (m : Memory) (pc : UInt8) (l next : WindowLine) : Prop :=
  let size := (m.disassembleAt l.address).2
  if l.address < pc ∧ pc.toNat < l.address.toNat + size then next.address = pc
  else next.address.toNat = l.address.toNat + size

/-- The whole listing with the program counter at `pc`. -/
def listing (m : Memory) (pc : UInt8) : List WindowLine := m.sweep pc.toNat 0

/-- At ascending addresses no entry is marked beside the one at the program counter. -/
theorem unmarked_beside {m : Memory} {pc : UInt8} {above below : List WindowLine} {current : WindowLine}
    (hascending : (above ++ current :: below).Pairwise (·.address < ·.address))
    (hshows : ∀ l ∈ above ++ current :: below, l.Shows m pc) (haddress : current.address = pc) :
    ∀ l ∈ above ++ below, l.isCurrent = false := by
  obtain ⟨-, hbelow, habove⟩ := List.pairwise_append.mp hascending
  intro l hl
  rw [Bool.eq_false_iff, ne_eq]
  rcases List.mem_append.mp hl with hl | hl
  · rw [(hshows l (List.mem_append_left _ hl)).marked, ← haddress]
    exact UInt8.ne_of_lt (habove l hl _ List.mem_cons_self)
  · rw [(hshows l (List.mem_append_right _ (List.mem_cons_of_mem _ hl))).marked, ← haddress]
    exact (UInt8.ne_of_lt (List.rel_of_pairwise_cons hbelow hl)).symm

/-! ## The sweep -/

section

variable {m : Memory} {pc : UInt8} {a : Nat}

/-- The entry of the sweep at an address. -/
def entryAt (m : Memory) (pc : UInt8) (a : Nat) : WindowLine :=
  ⟨UInt8.ofNat a, (m.disassembleAt (UInt8.ofNat a)).1, a = pc.toNat⟩

/-- Where the sweep goes on after the entry at an address. -/
def afterEntry (m : Memory) (pc : UInt8) (a : Nat) : Nat :=
  nextEntry pc.toNat a (m.disassembleAt (UInt8.ofNat a)).2

theorem sweep_eq (h : a < memorySize) :
    m.sweep pc.toNat a = m.entryAt pc a :: m.sweep pc.toNat (m.afterEntry pc a) := by
  rw [sweep, if_pos h]
  rfl

theorem sweep_end (h : memorySize ≤ a) : m.sweep pc.toNat a = [] := by
  rw [sweep, if_neg (Nat.not_lt.mpr h)]

theorem lt_afterEntry (m : Memory) (pc : UInt8) (a : Nat) : a < m.afterEntry pc a :=
  lt_nextEntry pc.toNat a _ (disassembleAt_size m _).1

/-- The sweep does not run past the program counter. -/
theorem afterEntry_le (h : a < pc.toNat) : m.afterEntry pc a ≤ pc.toNat := by
  unfold afterEntry nextEntry
  split <;> omega

theorem address_entryAt (h : a < memorySize) : (m.entryAt pc a).address.toNat = a :=
  UInt8.toNat_ofNat_of_lt' h

theorem address_eq_iff (h : a < memorySize) : (m.entryAt pc a).address = pc ↔ a = pc.toNat := by
  rw [← UInt8.toNat_inj, address_entryAt h]

theorem shows_entryAt (h : a < memorySize) : (m.entryAt pc a).Shows m pc :=
  ⟨rfl, decide_eq_true_iff.trans (address_eq_iff h).symm⟩

theorem follows_entryAt (h : a < memorySize) (hnext : m.afterEntry pc a < memorySize) :
    m.Follows pc (m.entryAt pc a) (m.entryAt pc (m.afterEntry pc a)) := by
  unfold Follows
  simp only [UInt8.lt_iff_toNat_lt, address_entryAt h, address_entryAt hnext, address_eq_iff hnext]
  by_cases hstraddles : a < pc.toNat ∧ pc.toNat < a + (m.disassembleAt (UInt8.ofNat a)).2
  · have hnext : m.afterEntry pc a = pc.toNat := if_pos hstraddles
    exact (if_pos hstraddles).mpr hnext
  · have hnext : m.afterEntry pc a = a + (m.disassembleAt (UInt8.ofNat a)).2 := if_neg hstraddles
    exact (if_neg hstraddles).mpr hnext

/-- Induction along the sweep, which ends behind the last cell. -/
theorem sweep_induction (m : Memory) (pc : UInt8) {motive : Nat → Prop}
    (ended : ∀ a, memorySize ≤ a → motive a)
    (entry : ∀ a, a < memorySize → motive (m.afterEntry pc a) → motive a) (a : Nat) : motive a :=
  sweep.induct m pc.toNat motive entry (fun a h => ended a (Nat.not_lt.mp h)) a

theorem shows_of_mem_sweep {l : WindowLine} (h : l ∈ m.sweep pc.toNat a) :
    a ≤ l.address.toNat ∧ l.Shows m pc := by
  induction a using sweep_induction m pc with
  | ended a ha =>
    rw [sweep_end ha] at h
    cases h
  | entry a ha ih =>
    rw [sweep_eq ha] at h
    rcases List.mem_cons.mp h with rfl | hrest
    · exact ⟨(address_entryAt ha).symm.le, shows_entryAt ha⟩
    · obtain ⟨hle, hshows⟩ := ih hrest
      exact ⟨(Nat.le_of_lt (lt_afterEntry m pc a)).trans hle, hshows⟩

theorem pairwise_sweep (m : Memory) (pc : UInt8) (a : Nat) :
    (m.sweep pc.toNat a).Pairwise (·.address < ·.address) := by
  induction a using sweep_induction m pc with
  | ended a ha =>
    rw [sweep_end ha]
    exact List.Pairwise.nil
  | entry a ha ih =>
    rw [sweep_eq ha]
    refine List.Pairwise.cons (fun l hl => ?_) ih
    rw [UInt8.lt_iff_toNat_lt, address_entryAt ha]
    exact Nat.lt_of_lt_of_le (lt_afterEntry m pc a) (shows_of_mem_sweep hl).1

theorem isChain_sweep (m : Memory) (pc : UInt8) (a : Nat) :
    (m.sweep pc.toNat a).IsChain (m.Follows pc) := by
  induction a using sweep_induction m pc with
  | ended a ha =>
    rw [sweep_end ha]
    exact .nil
  | entry a ha ih =>
    rw [sweep_eq ha]
    rcases Nat.lt_or_ge (m.afterEntry pc a) memorySize with hnext | hnext
    · rw [sweep_eq hnext] at ih ⊢
      exact .cons_cons (follows_entryAt ha hnext) ih
    · rw [sweep_end hnext]
      exact .singleton _

theorem length_sweep_le (m : Memory) (pc : UInt8) (a : Nat) :
    (m.sweep pc.toNat a).length ≤ memorySize - a := by
  induction a using sweep_induction m pc with
  | ended a ha =>
    rw [sweep_end ha]
    exact Nat.zero_le _
  | entry a ha ih =>
    have hnext := lt_afterEntry m pc a
    rw [sweep_eq ha, List.length_cons]
    omega

/-- A sweep from an address at or below the program counter comes to the program counter, whatever the bytes in
between decode to. -/
theorem sweep_reaches (h : a ≤ pc.toNat) :
    ∃ above below, m.sweep pc.toNat a = above ++ m.entryAt pc pc.toNat :: below ∧
      ∀ l ∈ above, l.address < pc := by
  have hpc : pc.toNat < memorySize := pc.toNat_lt
  induction a using sweep_induction m pc with
  | ended a ha => omega
  | entry a ha ih =>
    rw [sweep_eq ha]
    rcases Nat.eq_or_lt_of_le h with rfl | hlt
    · exact ⟨[], _, rfl, by simp⟩
    -- The entry at `a` is not followed by an address past the program counter, so the rest comes to it.
    · obtain ⟨above, below, hsweep, habove⟩ := ih (afterEntry_le hlt)
      refine ⟨m.entryAt pc a :: above, below, by rw [hsweep]; rfl, ?_⟩
      rintro l (_ | ⟨_, hl⟩)
      · rwa [UInt8.lt_iff_toNat_lt, address_entryAt ha]
      · exact habove l hl

end

/-! ## The window -/

/-- The window around an element that others stand above and below. -/
theorem take_drop_around {α : Type} (above below : List α) (current : α) {count : Nat} (h : 1 ≤ count) :
    ((above ++ current :: below).drop (above.length - count / 2)).take count =
      above.drop (above.length - count / 2) ++
        current :: below.take (count - 1 - (above.drop (above.length - count / 2)).length) := by
  generalize hbefore : above.drop (above.length - count / 2) = before
  have hlength : before.length ≤ count / 2 := by
    rw [← hbefore, List.length_drop]
    omega
  rw [List.drop_append_of_le_length (Nat.sub_le _ _), hbefore, List.take_append,
    List.take_of_length_le (by omega),
    show count - before.length = count - 1 - before.length + 1 by omega, List.take_succ_cons]

theorem findIdx?_current {above below : List WindowLine} {current : WindowLine}
    (habove : ∀ l ∈ above, l.isCurrent = false) (hcurrent : current.isCurrent = true) :
    (above ++ current :: below).findIdx? (·.isCurrent) = some above.length := by
  have hnone : above.findIdx? (·.isCurrent) = none :=
    List.findIdx?_eq_none_iff.mpr habove
  rw [List.findIdx?_append, hnone, List.findIdx?_cons, if_pos hcurrent, Option.map_some, Nat.zero_add]
  rfl

section

variable {m : Memory} {pc : UInt8} {count : Nat}

/-- The entries above the current one, of which the window has the last ones, and those below it, of which the
window has the first. -/
theorem disassemblyWindow_eq (m : Memory) (pc : UInt8) (hcount : 1 ≤ count) :
    ∃ above below, m.listing pc = above ++ m.entryAt pc pc.toNat :: below ∧
      m.disassemblyWindow pc count =
        above.drop (above.length - count / 2) ++
          m.entryAt pc pc.toNat ::
            below.take (count - 1 - (above.drop (above.length - count / 2)).length) := by
  obtain ⟨above, below, hsweep, habove⟩ := sweep_reaches (m := m) (Nat.zero_le pc.toNat)
  have hunmarked : ∀ l ∈ above, l.isCurrent = false := by
    intro l hl
    have hshows := shows_of_mem_sweep (hsweep ▸ List.mem_append_left _ hl)
    rw [Bool.eq_false_iff, ne_eq, hshows.2.marked]
    exact UInt8.ne_of_lt (habove l hl)
  have hmarked : (m.entryAt pc pc.toNat).isCurrent = true := decide_eq_true rfl
  refine ⟨above, below, hsweep, ?_⟩
  simp only [disassemblyWindow, hsweep, findIdx?_current hunmarked hmarked, Option.getD_some]
  exact take_drop_around above below _ hcount

theorem isInfix_disassemblyWindow (m : Memory) (pc : UInt8) (count : Nat) :
    m.disassemblyWindow pc count <:+: m.listing pc :=
  (List.take_prefix _ _).isInfix.trans (List.drop_suffix _ _).isInfix

/-- A window that is not full ends where the listing ends. -/
theorem isSuffix_disassemblyWindow (h : (m.disassemblyWindow pc count).length < count) :
    m.disassemblyWindow pc count <:+ m.listing pc := by
  simp only [disassemblyWindow, List.length_take] at h ⊢
  rw [List.take_of_length_le (by omega)]
  exact List.drop_suffix _ _

end

end Memory

namespace Processor

/-- The next step executes the instruction, whatever becomes of it. -/
inductive Attempts (p : Processor) (i : Instruction Register) : Prop
  | failed (q : Processor) (f : Fault) (decode : p.memory.decodeAt p.pc = .ok i)
      (execute : p.execute i = .failed q f) (step : p.step = ⟨q.stop f, none, .error f⟩)
  | completed (printed : Option Printed) (done : Processor) (completes : p.Completes i printed done)

theorem attempts_of_decode {p : Processor} {i : Instruction Register} (hrun : p.state = .running)
    (hdecode : p.memory.decodeAt p.pc = .ok i) : p.Attempts i := by
  rcases step_cases hrun with ⟨e, he⟩ | ⟨j, q, f, hj, hexec⟩ | ⟨j, printed, done, hdone⟩
  · rw [hdecode] at he
    cases he
  · rw [hdecode] at hj
    cases hj
    exact .failed q f hdecode hexec (step_of_failed hrun hdecode hexec)
  · have hj := hdone.2.1
    rw [hdecode] at hj
    cases hj
    exact .completed printed done hdone

/-- The text names the instruction that the next step executes if the processor runs, or the byte at the
program counter if that does not decode. -/
inductive TellsNext (p : Processor) (text : String) : Prop
  | instruction (i : Instruction Register) (decode : p.memory.decodeAt p.pc = .ok i)
      (text_eq : text = i.raw.assembly) (next : p.state = .running → p.Attempts i)
  | data (e : DecodeError) (decode : p.memory.decodeAt p.pc = .error e)
      (text_eq : text = "DB " ++ Text.address (p.memory.read p.pc))

theorem tellsNext_disassembleAt (p : Processor) : p.TellsNext (p.memory.disassembleAt p.pc).1 := by
  unfold Memory.disassembleAt
  cases hdecode : p.memory.decodeAt p.pc with
  | ok i => exact .instruction i hdecode rfl (attempts_of_decode · hdecode)
  | error e => exact .data e hdecode rfl

/-- The window always shows the current instruction. The listing has at most an entry for each cell, and the
window is a stretch of it with no entry left out. Its entries stand at ascending addresses, each where the one
before ends or at the program counter, and each has the text that the disassembly gives there. One of them is
marked: it stands at the program counter, with at most half of the window above it, and names the instruction
that a step would execute. The window is cut short only where the listing ends, and only where the listing
begins are fewer entries above. -/
theorem window_around_current (p : Processor) {count : Nat} (hcount : 1 ≤ count) :
    let m := p.memory
    let listing := m.listing p.pc
    let window := m.disassemblyWindow p.pc count
    listing.length ≤ 256 ∧ listing.head?.map (·.address) = some 0 ∧
      window <:+: listing ∧ window.length ≤ count ∧
      window.Pairwise (·.address < ·.address) ∧
      window.IsChain (m.Follows p.pc) ∧
      (∀ l ∈ window, l.Shows m p.pc) ∧
      (window.length < count → window <:+ listing) ∧
      ∃ above current below, window = above ++ current :: below ∧
        current.address = p.pc ∧ current.isCurrent = true ∧
        (∀ l ∈ above ++ below, l.isCurrent = false) ∧
        above.length ≤ count / 2 ∧ (above.length < count / 2 → window <+: listing) ∧
        p.TellsNext current.text := by
  intro m listing window
  obtain ⟨above, below, hlisting, hwindow⟩ := m.disassemblyWindow_eq p.pc hcount
  change listing = _ at hlisting
  change window = _ at hwindow
  have hstretch : window <:+: listing := m.isInfix_disassemblyWindow p.pc count
  have hascending : window.Pairwise (·.address < ·.address) :=
    (m.pairwise_sweep p.pc 0).sublist hstretch.sublist
  have hshows : ∀ l ∈ window, l.Shows m p.pc := fun l hl =>
    (Memory.shows_of_mem_sweep (hstretch.subset hl)).2
  have hcurrent : (m.entryAt p.pc p.pc.toNat).Shows m p.pc := Memory.shows_entryAt p.pc.toNat_lt
  have haddress : (m.entryAt p.pc p.pc.toNat).address = p.pc := UInt8.ofNat_toNat
  have hmarked : (m.entryAt p.pc p.pc.toNat).isCurrent = true := hcurrent.marked.mpr haddress
  have hfollows : window.IsChain (m.Follows p.pc) := List.IsChain.infix (m.isChain_sweep p.pc 0) hstretch
  refine ⟨m.length_sweep_le p.pc 0, ?_, hstretch, List.length_take_le _ _, hascending, hfollows, hshows,
    Memory.isSuffix_disassemblyWindow, _, _, _, hwindow, haddress, hmarked, ?_, ?_, ?_, ?_⟩
  · show Option.map _ (m.sweep p.pc.toNat 0).head? = _
    rw [Memory.sweep_eq (by decide)]
    rfl
  · rw [hwindow] at hascending hshows
    exact Memory.unmarked_beside hascending hshows haddress
  · rw [List.length_drop]
    omega
  · intro hshort
    rw [List.length_drop] at hshort
    have hstart : above.length - count / 2 = 0 := by omega
    rw [hwindow, hlisting, hstart, List.drop_zero, List.prefix_append_right_inj,
      List.cons_prefix_cons]
    exact ⟨rfl, List.take_prefix _ _⟩
  · rw [hcurrent.text, haddress]
    exact p.tellsNext_disassembleAt

/-- A processor whose program counter stands within the first instruction, at its register operand. -/
def straddled : Processor := (powerOn.load [0x82, 0, 8, 0x47, 0, 1]).1.setPc 1

theorem straddled_window :
    1 ≤ 3 ∧ ∃ above current below,
      straddled.memory.disassemblyWindow straddled.pc 3 = above ++ current :: below ∧
        above.length ≤ 1 ∧ current.address = 1 ∧ current.text = "NOP" ∧
        straddled.Attempts .nop := by
  obtain ⟨-, -, -, -, -, -, -, -, above, current, below, hwindow, haddress, -, -, hlength, -, htells⟩ :=
    window_around_current straddled (by decide : 1 ≤ 3)
  refine ⟨by decide, above, current, below, hwindow, hlength, haddress, ?_⟩
  have hnop : straddled.memory.decodeAt straddled.pc = .ok .nop := by decide +kernel
  cases htells with
  | instruction i decode text next =>
    rw [hnop] at decode
    cases decode
    exact ⟨text, next rfl⟩
  | data e decode text =>
    rw [hnop] at decode
    cases decode

end Processor

end Microcomputer
