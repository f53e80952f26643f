import Microcomputer.Proofs.ConsoleRun
import Microcomputer.Proofs.Replay

/-!
What a debugger tells of its image.

`TellsOf` holds of a debugger that shows the image as it is, or says that it was refused. Every reset leaves
such a debugger (`tellsOf_reset`). A new one calls itself ready whatever became of the image, so that it tells
of images that fit and of no others.

* `load_told` puts both together, beside the run of the same image from the command line.
* `refused_image_called_ready` is a new debugger on an image that is one byte too long.
-/

namespace Microcomputer

/-- Whether the status line reports an error. -/
def Status.isError : Status → Bool
  | loadRefused _ | faulted _ => true
  | _ => false

namespace Debugger

open CommandLine

/-- The image stands in memory and no error is reported, or the image is too large, memory is all zero, and
the status says that the image was refused. -/
inductive TellsOf (d : Debugger) (image : List UInt8) : Prop
  | loaded (cells : ∀ (k : Nat) (hk : k < image.length), ∃ a : UInt8, a.toNat = k ∧
        d.processor.memory.read a = image[k])
      (quiet : d.status.isError = false)
  | refused (large : 243 < image.length) (clear : ∀ a, d.processor.memory.read a = 0)
      (status : d.status = .loadRefused ⟨image.length⟩)

theorem message_tooLarge (size : Nat) :
    (⟨size⟩ : ImageTooLarge).message =
      "program size " ++ toString size ++ " exceeds available space 243" := by
  show "program size " ++ toString size ++ " exceeds available space " ++ toString maxImageSize = _
  rw [String.append_assoc]
  rfl

section

variable {d : Debugger} {image : List UInt8}

/-- A debugger on a processor that has just loaded an image that fits. -/
theorem tellsOf_of_fits {p : Processor} (hfits : image.length ≤ 243)
    (hprocessor : d.processor = (p.load image).1) (hquiet : d.status.isError = false) :
    d.TellsOf image := by
  apply TellsOf.loaded
  · intro k hk
    have hk' : (UInt8.ofNat k).toNat = k := by
      rw [UInt8.toNat_ofNat']
      omega
    refine ⟨UInt8.ofNat k, hk', ?_⟩
    rw [hprocessor, Processor.read_load_of_fits p hfits, hk', List.getElem?_eq_getElem hk, Option.getD_some]
  · exact hquiet

/-- An image that is refused leaves memory clear. -/
theorem read_load_of_large (p : Processor) (hlarge : 243 < image.length) (a : UInt8) :
    (p.load image).1.memory.read a = 0 := by
  rw [Processor.load_of_large p hlarge]
  exact Memory.read_clear _ _

theorem status_reset_of_fits (hfits : d.image.length ≤ 243) : d.reset.status = .reset := by
  unfold reset
  rw [Processor.load_of_fits _ hfits]

theorem status_reset_of_large (hlarge : 243 < d.image.length) :
    d.reset.status = .loadRefused ⟨d.image.length⟩ := by
  unfold reset
  rw [Processor.load_of_large _ hlarge]

theorem processor_ofImage (image : List UInt8) (c : Configuration) :
    (ofImage image c).processor = (Processor.powerOn.load image).1 := rfl

theorem status_ofImage (image : List UInt8) (c : Configuration) :
    (ofImage image c).status = .ready := rfl

/-- A reset tells of the image, whatever was done before. -/
theorem tellsOf_reset (d : Debugger) : d.reset.TellsOf d.image := by
  rcases Nat.lt_or_ge 243 d.image.length with hlarge | hfits
  · exact .refused hlarge (read_load_of_large d.processor hlarge) (status_reset_of_large hlarge)
  · apply tellsOf_of_fits hfits (p := d.processor) rfl
    rw [status_reset_of_fits hfits]
    rfl

end

/-- After a reset, whatever was done before it, either the image stands in memory and no error is reported,
or the image has more than 243 bytes, memory is all zero and the status is the load error, which names the
cause that a run of the image from the command line reports. A new debugger does the same where the image
fits; it calls itself ready all the same where it does not, and memory is all zero. -/
theorem load_told (image : List UInt8) (c : Configuration) (operations : List Operation) :
    let fresh := ofImage image c
    let d := (fresh.performAll operations).reset
    let cause := "program size " ++ toString image.length ++ " exceeds available space 243"
    d.TellsOf image ∧
      (image.length ≤ 243 → fresh.TellsOf image ∧ fresh.status = .ready ∧ d.status = .reset) ∧
      (243 < image.length →
        (∀ a, fresh.processor.memory.read a = 0) ∧ fresh.status = .ready ∧
          d.status.text = "Load error: " ++ cause) ∧
      ∀ (files : Files) (typed : List UInt8) (o : RunOptions) (base : Configuration),
        Configures files o.configFile base → Image.load files o.program = .ok image → image ≠ [] →
          (image.length ≤ 243 → ∃ r, runProgram files typed o = .ok r) ∧
          (243 < image.length → (Command.run o).perform files typed =
            .finished ⟨1, "", "❌ Failed to load program: " ++ cause ++ "\n"⟩) := by
  intro fresh d cause
  have himage : (fresh.performAll operations).image = image := (on_performAll image c operations).image
  have hcause : (⟨image.length⟩ : ImageTooLarge).message = cause := message_tooLarge image.length
  refine ⟨?_, fun hfits => ⟨?_, rfl, ?_⟩, fun hlarge => ⟨?_, rfl, ?_⟩, ?_⟩
  · have htells := tellsOf_reset (fresh.performAll operations)
    rwa [himage] at htells
  · exact tellsOf_of_fits hfits (p := .powerOn) rfl rfl
  · apply status_reset_of_fits
    rwa [himage]
  · exact read_load_of_large .powerOn hlarge
  · have hrefused := status_reset_of_large (d := fresh.performAll operations) (by rwa [himage])
    rw [himage] at hrefused
    rw [hrefused, ← hcause]
    rfl
  · intro files typed o base hconfigures hload hne
    have hrun := runProgram_eq typed (configuration_of_configures hconfigures) (image_of_loaded hload hne)
    constructor
    · intro hfits
      have hreturns : (Console.ofMachine ((o.machine typed base).load image).1).run? = some _ :=
        congrArg (Option.map _) (Machine.limit?_loaded _ _ image)
      rw [load_fits _ hfits, hreturns] at hrun
      exact ⟨_, hrun⟩
    · intro hlarge
      rw [load_too_large _ hlarge] at hrun
      rw [Command.perform, hrun, ← hcause]
      rfl

/-- One byte too many. -/
def oversized : List UInt8 := List.replicate 244 1

/-- A new debugger on an image that was refused neither has it in memory nor says that it was refused. -/
theorem refused_image_called_ready :
    ¬(ofImage oversized .default).TellsOf oversized ∧
      (ofImage oversized .default).status.text = "Ready. Press 's' to step, 'r' to run, 'q' to quit." := by
  have hlarge : 243 < oversized.length := by
    rw [oversized, List.length_replicate]
    decide
  have hready : (ofImage oversized .default).status = .ready := status_ofImage _ _
  constructor
  · rintro (⟨cells, -⟩ | ⟨-, -, hrefused⟩)
    · obtain ⟨a, -, hone⟩ := cells 0 (by omega)
      rw [processor_ofImage, read_load_of_large .powerOn hlarge] at hone
      simp only [oversized, List.getElem_replicate] at hone
      exact absurd hone (by decide)
    · rw [hready] at hrefused
      cases hrefused
  · rw [hready]
    rfl

def oversizedFiles : Files := .ofList [("large.bin", ⟨oversized.toArray⟩)]

def oversizedOptions : RunOptions where
  program := "large.bin"
  configFile := none
  maxCycles := none
  trace := false
  timerMs := none
  delayUs := none
  keys := some ""
  keyInterval := 50
  dumpState := false

theorem oversized_told :
    let d := ((ofImage oversized .default).performAll [.step .origin, .press 65, .scroll 2]).reset
    243 < oversized.length ∧
      d.status.text = "Load error: program size 244 exceeds available space 243" ∧
      (Command.run oversizedOptions).perform oversizedFiles [] = .finished
        ⟨1, "", "❌ Failed to load program: program size 244 exceeds available space 243\n"⟩ := by
  intro d
  have hlength : oversized.length = 244 := List.length_replicate
  have hlarge : 243 < oversized.length := by omega
  have hload : Image.load oversizedFiles "large.bin" = .ok oversized := by decide +kernel
  obtain ⟨-, -, htold, hrun⟩ := load_told oversized .default [.step .origin, .press 65, .scroll 2]
  obtain ⟨-, -, hstatus⟩ := htold hlarge
  have hrefused := (hrun oversizedFiles [] oversizedOptions .default rfl hload (by decide)).2 hlarge
  rw [hlength] at hstatus hrefused
  exact ⟨hlarge, hstatus, hrefused⟩

end Debugger

end Microcomputer
