import Mathlib
import Sidewalk.Lib.System

/-!
# The registry of GPIO pins

`sid_gpio_utils.c`. A pin is registered once and known by the number of its slot from then on. The
number is right for every order of calls, but the check for a full table comes before the search,
and the pin is configured under a number that is not valid yet.
-/

namespace Sidewalk.Gpio

open Sidewalk.Lib

/-! ## The code -/

/-- The flags of Zephyr's GPIO driver that the module names. -/
structure GpioFlags where
  input : UInt32
  output : UInt32
  disconnected : UInt32
  intDisable : UInt32
  intMask : UInt32

/-- `CONFIG_SIDEWALK_GPIO_MAX` is an option of type `int`. -/
structure GpioConfig where
  flags : GpioFlags
  max : Nat
  max_lt : max < 2147483648

def gpioUnusedPin : Nat := 128

/-- `-ENOSPC` as a `uint32_t`. -/
def enospc : Nat := 4294967296 - 28

def einval : Int := -22
def eio : Int := -5
def enoent : Int := -2
def enotsup : Int := -134

/-- A port that is `NULL` is `none`. -/
structure GpioPortPin where
  port : Option Nat
  pin : UInt8
  deriving DecidableEq

structure GpioDtSpec where
  gpio : GpioPortPin
  dtFlags : UInt16

/-- `struct sid_gpio_util_pin`, with the `pin_mask` of its callback. -/
structure SidGpioUtilPin where
  gpio : GpioPortPin
  configurationCache : UInt32
  pinMask : UInt32
  gpioIrqHandler : Option Nat
  handlerArg : Nat

/-- The slot of a pin that is registered first. -/
def GpioDtSpec.pin (spec : GpioDtSpec) : SidGpioUtilPin :=
  ⟨spec.gpio, spec.dtFlags.toUInt32, 0, none, 0⟩

@[simp] theorem GpioDtSpec.pin_gpio (spec : GpioDtSpec) : spec.pin.gpio = spec.gpio := rfl

/-- The context of the module, whether its work queue runs, and how the pins are configured. -/
structure World where
  supportedPins : Nat → SidGpioUtilPin
  nextFreeSlot : Nat
  initialized : Bool
  hardware : GpioPortPin → UInt32

namespace World

def setPin (w : World) (i : Nat) (pin : SidGpioUtilPin) : World :=
  { w with supportedPins := Function.update w.supportedPins i pin }

def setCache (w : World) (i : Nat) (cache : UInt32) : World :=
  w.setPin i { w.supportedPins i with configurationCache := cache }

def setMask (w : World) (i : Nat) (mask : UInt32) : World :=
  w.setPin i { w.supportedPins i with pinMask := mask }

end World

/-- The driver configures the pin where it replies 0. -/
def gpioPinConfigure (gpio : GpioPortPin) (flags : UInt32) (reply : Int) (w : World) :
    Int × World :=
  (reply, if reply = 0 then { w with hardware := Function.update w.hardware gpio flags } else w)

/-- `CHECK_IF_GPIO_IS_REGISTERED`, with the error that it returns. -/
def checkIfGpioIsRegistered (w : World) (gpioNumber : Nat) : Option Int :=
  if gpioNumber = gpioUnusedPin then some enotsup
  else if gpioNumber ≥ w.nextFreeSlot then some einval
  else none

/-- What a call does behind the check. -/
def registered (gpioNumber : Nat) (body : World → Int × World) (w : World) : Int × World :=
  match checkIfGpioIsRegistered w gpioNumber with
  | some error => (error, w)
  | none => body w

def findGpioInRegister (w : World) (gpio : GpioPortPin) : Nat :=
  ((List.range w.nextFreeSlot).find? fun i => (w.supportedPins i).gpio = gpio).getD w.nextFreeSlot

section

variable (config : GpioConfig)

def gpioSetFlags (gpioNumber : Nat) (flag : UInt32) (reply : Int) : World → Int × World :=
  registered gpioNumber fun w =>
    let cache := ((w.supportedPins gpioNumber).configurationCache &&& config.flags.intMask) |||
      (flag &&& ~~~config.flags.intMask)
    gpioPinConfigure (w.supportedPins gpioNumber).gpio (cache &&& ~~~config.flags.intMask) reply
      (w.setCache gpioNumber cache)

/-- `sid_gpio_utils_register_gpio`; the reply is that of the driver, if it is called. -/
def registerGpio (spec : GpioDtSpec) (reply : Int) (w : World) : Nat × World :=
  if w.nextFreeSlot ≥ config.max then (enospc, w)
  else if spec.gpio.port = none then (gpioUnusedPin, w)
  else
    let gpio := findGpioInRegister w spec.gpio
    if gpio < w.nextFreeSlot then (gpio, w)
    else
      let w := w.setPin w.nextFreeSlot spec.pin
      let w := (gpioSetFlags config w.nextFreeSlot
        (w.supportedPins w.nextFreeSlot).configurationCache reply w).2
      (w.nextFreeSlot, { w with initialized := true, nextFreeSlot := w.nextFreeSlot + 1 })

/-- `sid_gpio_utils_gpio_read`; the reply is the level of the pin or an error. -/
def gpioRead (gpioNumber : Nat) (reply : Int) : World → Int × World :=
  registered gpioNumber fun w =>
    if (w.supportedPins gpioNumber).configurationCache &&& config.flags.input = 0 then (einval, w)
    else if reply < 0 then (eio, w)
    else (0, w)

/-- `sid_gpio_utils_gpio_set` and `sid_gpio_utils_gpio_toggle`, which differ in the call of the
driver. -/
def gpioWrite (gpioNumber : Nat) (reply : Int) : World → Int × World :=
  registered gpioNumber fun w =>
    if (w.supportedPins gpioNumber).configurationCache &&& config.flags.output = 0 then (einval, w)
    else (reply, w)

def gpioDisconnect (gpioNumber : Nat) (reply : Int) : World → Int × World :=
  registered gpioNumber fun w =>
    gpioPinConfigure (w.supportedPins gpioNumber).gpio config.flags.disconnected reply w

/-- `sid_gpio_utils_gpio_get_flags`, and whether `flag` is not `NULL`. -/
def gpioGetFlags (gpioNumber : Nat) (flag : Bool) : World → Int × World :=
  registered gpioNumber fun w => (if flag then 0 else enoent, w)

def irqHandlerSet (gpioNumber : Nat) (handler : Option Nat) (callbackArg : Nat) :
    World → Int × World :=
  registered gpioNumber fun w =>
    (0, w.setPin gpioNumber { w.supportedPins gpioNumber with
      gpioIrqHandler := handler, handlerArg := callbackArg })

def writeBit (mask : UInt32) (bit : UInt8) (set : Bool) : UInt32 :=
  if set then mask ||| (1 <<< bit.toUInt32) else mask &&& ~~~(1 <<< bit.toUInt32)

/-- What the driver replies to the calls of `sid_gpio_utils_irq_configure`. -/
structure IrqReplies where
  addCallback : Int
  removeCallback : Int
  pinConfigure : Int
  interruptConfigure : Int

/-- The end of `sid_gpio_utils_irq_configure`. -/
def irqFlagsSet (gpioNumber : Nat) (irqFlags : UInt32) (reply : Int) (w : World) : Int × World :=
  (reply, w.setCache gpioNumber
    (((w.supportedPins gpioNumber).configurationCache &&& ~~~config.flags.intMask) |||
      (irqFlags &&& config.flags.intMask)))

/-- What `sid_gpio_utils_irq_configure` does where no callback was added yet. -/
def irqCallbackAdd (gpioNumber : Nat) (irqFlags : UInt32) (replies : IrqReplies) (w : World) :
    Int × World :=
  let pin := w.supportedPins gpioNumber
  if replies.addCallback ≠ 0 then
    (replies.addCallback, w.setMask gpioNumber (writeBit pin.pinMask pin.gpio.pin false))
  else
    let cache := (pin.configurationCache &&& ~~~(config.flags.input ||| config.flags.output)) |||
      config.flags.input
    let w := (gpioPinConfigure pin.gpio (cache &&& ~~~config.flags.intMask) replies.pinConfigure
      (w.setCache gpioNumber cache)).2
    irqFlagsSet config gpioNumber irqFlags replies.interruptConfigure w

def irqConfigure (gpioNumber : Nat) (irqFlags : UInt32) (replies : IrqReplies) :
    World → Int × World :=
  registered gpioNumber fun w =>
    let pin := w.supportedPins gpioNumber
    let isInitialized := pin.pinMask ≠ 0
    let mask := writeBit pin.pinMask pin.gpio.pin
      (config.flags.intDisable ≠ irqFlags &&& config.flags.intDisable)
    let w := w.setMask gpioNumber mask
    if ¬isInitialized ∧ config.flags.intDisable ≠ irqFlags then
      irqCallbackAdd config gpioNumber irqFlags replies w
    else if isInitialized ∧ mask = 0 ∧ replies.removeCallback ≠ 0 then
      (replies.removeCallback, w)
    else irqFlagsSet config gpioNumber irqFlags replies.interruptConfigure w

def irqSet (gpioNumber : Nat) (set : Bool) (reply : Int) : World → Int × World :=
  registered gpioNumber fun w =>
    let irqFlags := (w.supportedPins gpioNumber).configurationCache &&& config.flags.intMask
    if set ∧ irqFlags = 0 then (0, w) else (reply, w)

end

/-! ## Runs -/

/-- The calls on a number. -/
inductive PinCall
  | setFlags (flag : UInt32) (reply : Int)
  | read (reply : Int)
  | write (reply : Int)
  | disconnect (reply : Int)
  | getFlags (flag : Bool)
  | irqHandlerSet (handler : Option Nat) (callbackArg : Nat)
  | irqConfigure (irqFlags : UInt32) (replies : IrqReplies)
  | irqSet (set : Bool) (reply : Int)

def PinCall.run (config : GpioConfig) (gpioNumber : Nat) : PinCall → World → Int × World
  | .setFlags flag reply => gpioSetFlags config gpioNumber flag reply
  | .read reply => gpioRead config gpioNumber reply
  | .write reply => gpioWrite config gpioNumber reply
  | .disconnect reply => gpioDisconnect config gpioNumber reply
  | .getFlags flag => gpioGetFlags gpioNumber flag
  | .irqHandlerSet handler callbackArg => Gpio.irqHandlerSet gpioNumber handler callbackArg
  | .irqConfigure irqFlags replies => Gpio.irqConfigure config gpioNumber irqFlags replies
  | .irqSet set reply => Gpio.irqSet config gpioNumber set reply

inductive GpioCall
  | register (spec : GpioDtSpec) (reply : Int)
  | pin (gpioNumber : Nat) (call : PinCall)

/-- One call of `sid_gpio_utils_register_gpio`. -/
structure Registration where
  spec : GpioDtSpec
  result : Nat
  before : World
  after : World

/-- The module with the registrations so far, the last one first. -/
structure GpioRun where
  world : World
  history : List Registration

def GpioRun.call (config : GpioConfig) (s : GpioRun) : GpioCall → GpioRun
  | .register spec reply =>
    let r := registerGpio config spec reply s.world
    ⟨r.2, ⟨spec, r.1, s.world, r.2⟩ :: s.history⟩
  | .pin gpioNumber call => ⟨(call.run config gpioNumber s.world).2, s.history⟩

/-- The module from `sid_gpio_utils_clear_register` on, with pins configured in any way. -/
def gpioRegistry (config : GpioConfig) : System GpioRun GpioCall where
  init s := s.history = [] ∧ s.world.nextFreeSlot = 0
  step s call s' := s' = s.call config call

/-! ## The property -/

/-- The pin has been given this number. -/
def Issued (config : GpioConfig) (history : List Registration) (gpio : GpioPortPin) (id : Nat) :
    Prop :=
  gpio.port ≠ none ∧ id < config.max ∧ ∃ c ∈ history, c.spec.gpio = gpio ∧ c.result = id

/-- What a registration owes, after these. -/
structure Registered (config : GpioConfig) (older : List Registration) (c : Registration) :
    Prop where
  unused : c.spec.gpio.port = none → c.result = gpioUnusedPin
  /-- Only a new pin is refused, and only once all numbers are given. -/
  below : c.spec.gpio.port ≠ none → c.result < config.max ∨
    (¬∃ id, Issued config older c.spec.gpio id) ∧
      ∀ id < config.max, ∃ gpio, Issued config older gpio id
  own : c.spec.gpio.port ≠ none → c.result < config.max →
    ∀ gpio, Issued config older gpio c.result → gpio = c.spec.gpio
  same : ∀ id, Issued config older c.spec.gpio id → c.result = id
  undisturbed : ∀ gpio id, Issued config older gpio id →
    c.after.supportedPins id = c.before.supportedPins id
  configured : c.spec.gpio.port ≠ none → c.result < config.max →
    (¬∃ id, Issued config older c.spec.gpio id) →
      c.after.hardware c.spec.gpio = c.spec.dtFlags.toUInt32 &&& ~~~config.flags.intMask

/-- Every registration is as it should be. -/
def Lawful (config : GpioConfig) (history : List Registration) : Prop :=
  ∀ newer c older, history = newer ++ c :: older → Registered config older c

/-- While the table is full only new pins are registered; before, a new pin is configured with
its flags already. -/
def Heeded (config : GpioConfig) (w : World) (spec : GpioDtSpec) : Prop :=
  if w.nextFreeSlot ≥ config.max then
    spec.gpio.port ≠ none ∧ findGpioInRegister w spec.gpio = w.nextFreeSlot
  else spec.gpio.port ≠ none → findGpioInRegister w spec.gpio = w.nextFreeSlot →
    w.hardware spec.gpio = spec.dtFlags.toUInt32 &&& ~~~config.flags.intMask

/-! ## What the calls keep -/

section

variable {config : GpioConfig} {w w' : World}

/-- The same pins have the same numbers. -/
def SameNumbers (w w' : World) : Prop :=
  w'.nextFreeSlot = w.nextFreeSlot ∧ ∀ i, (w'.supportedPins i).gpio = (w.supportedPins i).gpio

theorem SameNumbers.refl : SameNumbers w w := ⟨rfl, fun _ => rfl⟩

theorem SameNumbers.trans {w'' : World} (h : SameNumbers w w') (h' : SameNumbers w' w'') :
    SameNumbers w w'' := ⟨h'.1.trans h.1, fun i => (h'.2 i).trans (h.2 i)⟩

theorem sameNumbers_setPin {i : Nat} {pin : SidGpioUtilPin}
    (h : pin.gpio = (w.supportedPins i).gpio) : SameNumbers w (w.setPin i pin) := by
  refine ⟨rfl, fun j => ?_⟩
  change (Function.update w.supportedPins i pin j).gpio = _
  by_cases hj : j = i
  · rw [hj, Function.update_self, h]
  · rw [Function.update_of_ne hj]

theorem sameNumbers_setCache {i : Nat} {cache : UInt32} : SameNumbers w (w.setCache i cache) :=
  sameNumbers_setPin rfl

theorem sameNumbers_setMask {i : Nat} {mask : UInt32} : SameNumbers w (w.setMask i mask) :=
  sameNumbers_setPin rfl

theorem sameNumbers_configure {gpio : GpioPortPin} {flags : UInt32} {reply : Int} :
    SameNumbers w (gpioPinConfigure gpio flags reply w).2 := by
  unfold gpioPinConfigure
  simp only
  split
  · exact ⟨rfl, fun _ => rfl⟩
  · exact .refl

theorem sameNumbers_registered {gpioNumber : Nat} {body : World → Int × World}
    (h : SameNumbers w (body w).2) : SameNumbers w (registered gpioNumber body w).2 := by
  unfold registered
  split
  · exact .refl
  · exact h

theorem sameNumbers_irqFlagsSet {gpioNumber : Nat} {irqFlags : UInt32} {reply : Int} :
    SameNumbers w (irqFlagsSet config gpioNumber irqFlags reply w).2 := sameNumbers_setCache

theorem sameNumbers_irqCallbackAdd {gpioNumber : Nat} {irqFlags : UInt32} {replies : IrqReplies} :
    SameNumbers w (irqCallbackAdd config gpioNumber irqFlags replies w).2 := by
  unfold irqCallbackAdd
  simp only
  split
  · exact sameNumbers_setMask
  · exact (sameNumbers_setCache.trans sameNumbers_configure).trans sameNumbers_irqFlagsSet

theorem sameNumbers_run (gpioNumber : Nat) (call : PinCall) :
    SameNumbers w (call.run config gpioNumber w).2 := by
  cases call with
  | setFlags flag reply =>
    exact sameNumbers_registered (sameNumbers_setCache.trans sameNumbers_configure)
  | read reply =>
    refine sameNumbers_registered ?_
    split_ifs <;> exact .refl
  | write reply =>
    refine sameNumbers_registered ?_
    split_ifs <;> exact .refl
  | disconnect reply => exact sameNumbers_registered sameNumbers_configure
  | getFlags flag => exact sameNumbers_registered .refl
  | irqHandlerSet handler callbackArg => exact sameNumbers_registered (sameNumbers_setPin rfl)
  | irqConfigure irqFlags replies =>
    refine sameNumbers_registered ?_
    dsimp only
    split_ifs
    · exact sameNumbers_setMask.trans sameNumbers_irqCallbackAdd
    · exact sameNumbers_setMask
    · exact sameNumbers_setMask.trans sameNumbers_irqFlagsSet
  | irqSet set reply =>
    refine sameNumbers_registered ?_
    dsimp only
    split_ifs <;> exact .refl

/-! ## The search -/

/-- The search ends at the slot of the pin, or at the free one. -/
theorem find_cases (w : World) (gpio : GpioPortPin) :
    (findGpioInRegister w gpio < w.nextFreeSlot ∧
      (w.supportedPins (findGpioInRegister w gpio)).gpio = gpio) ∨
    (findGpioInRegister w gpio = w.nextFreeSlot ∧
      ∀ i < w.nextFreeSlot, (w.supportedPins i).gpio ≠ gpio) := by
  unfold findGpioInRegister
  cases hfind : (List.range w.nextFreeSlot).find? fun i => (w.supportedPins i).gpio = gpio with
  | some i =>
    have hi := List.mem_of_find?_eq_some hfind
    exact .inl ⟨List.mem_range.mp hi, by simpa using List.find?_some hfind⟩
  | none =>
    refine .inr ⟨rfl, fun i hi => ?_⟩
    simpa using List.find?_eq_none.mp hfind i (List.mem_range.mpr hi)

/-- What a registration comes to: it is refused, it has no port, the pin is known, or the pin takes
the free slot. -/
theorem registerGpio_cases (spec : GpioDtSpec) (reply : Int) (w : World) :
    (config.max ≤ w.nextFreeSlot ∧ registerGpio config spec reply w = (enospc, w)) ∨
    (w.nextFreeSlot < config.max ∧ spec.gpio.port = none ∧
      registerGpio config spec reply w = (gpioUnusedPin, w)) ∨
    (w.nextFreeSlot < config.max ∧ spec.gpio.port ≠ none ∧
      findGpioInRegister w spec.gpio < w.nextFreeSlot ∧
      registerGpio config spec reply w = (findGpioInRegister w spec.gpio, w)) ∨
    (w.nextFreeSlot < config.max ∧ spec.gpio.port ≠ none ∧
      findGpioInRegister w spec.gpio = w.nextFreeSlot ∧
      registerGpio config spec reply w = (w.nextFreeSlot,
        { w.setPin w.nextFreeSlot spec.pin with
          initialized := true, nextFreeSlot := w.nextFreeSlot + 1 })) := by
  unfold registerGpio
  by_cases hfull : w.nextFreeSlot ≥ config.max
  · exact .inl ⟨hfull, if_pos hfull⟩
  · have hroom : w.nextFreeSlot < config.max := Nat.lt_of_not_le hfull
    rw [if_neg hfull]
    by_cases hport : spec.gpio.port = none
    · exact .inr (.inl ⟨hroom, hport, if_pos hport⟩)
    · rw [if_neg hport]
      simp only
      rcases find_cases w spec.gpio with ⟨hlt, -⟩ | ⟨heq, -⟩
      · exact .inr (.inr (.inl ⟨hroom, hport, hlt, if_pos hlt⟩))
      · refine .inr (.inr (.inr ⟨hroom, hport, heq, ?_⟩))
        -- The slot is not valid yet, so its flags are refused.
        have hrefused : ∃ error, checkIfGpioIsRegistered
            (w.setPin w.nextFreeSlot spec.pin) w.nextFreeSlot = some error := by
          unfold checkIfGpioIsRegistered
          split
          · exact ⟨_, rfl⟩
          · exact ⟨_, if_pos (Nat.le_refl _)⟩
        obtain ⟨error, herror⟩ := hrefused
        have hflags (flag : UInt32) : gpioSetFlags config w.nextFreeSlot flag reply
            (w.setPin w.nextFreeSlot spec.pin) = (error, w.setPin w.nextFreeSlot spec.pin) := by
          unfold gpioSetFlags registered
          rw [herror]
        rw [if_neg (by omega)]
        have hnext : (w.setPin w.nextFreeSlot spec.pin).nextFreeSlot = w.nextFreeSlot := rfl
        simp only [hnext, hflags]

end

/-! ## The numbers given -/

/-- The registry and its history agree on who has which number. -/
structure Numbered (config : GpioConfig) (s : GpioRun) : Prop where
  le : s.world.nextFreeSlot ≤ config.max
  distinct : ∀ i < s.world.nextFreeSlot, ∀ j < s.world.nextFreeSlot,
    (s.world.supportedPins i).gpio = (s.world.supportedPins j).gpio → i = j
  issued_iff : ∀ gpio id, Issued config s.history gpio id ↔
    id < s.world.nextFreeSlot ∧ (s.world.supportedPins id).gpio = gpio

section

variable {config : GpioConfig} {s : GpioRun}

/-- A number is given before a registration, or by it. -/
theorem issued_cons {history : List Registration} {c : Registration} {gpio : GpioPortPin}
    {id : Nat} : Issued config (c :: history) gpio id ↔
      Issued config history gpio id ∨
        (gpio.port ≠ none ∧ id < config.max ∧ c.spec.gpio = gpio ∧ c.result = id) := by
  simp only [Issued, List.exists_mem_cons_iff]
  constructor
  · rintro ⟨hport, hid, ⟨hgpio, hresult⟩ | hold⟩
    · exact .inr ⟨hport, hid, hgpio, hresult⟩
    · exact .inl ⟨hport, hid, hold⟩
  · rintro (⟨hport, hid, hold⟩ | ⟨hport, hid, hgpio, hresult⟩)
    · exact ⟨hport, hid, .inr hold⟩
    · exact ⟨hport, hid, .inl ⟨hgpio, hresult⟩⟩

theorem enospc_not_lt (config : GpioConfig) : ¬enospc < config.max := by
  have := config.max_lt
  unfold enospc
  omega

theorem Numbered.find_eq_iff (h : Numbered config s) (gpio : GpioPortPin) :
    findGpioInRegister s.world gpio = s.world.nextFreeSlot ↔
      ¬∃ id, Issued config s.history gpio id := by
  simp only [h.issued_iff]
  rcases find_cases s.world gpio with ⟨hlt, hgpio⟩ | ⟨heq, hnone⟩
  · refine iff_of_false hlt.ne ?_
    exact not_not_intro ⟨_, hlt, hgpio⟩
  · refine iff_of_true heq ?_
    rintro ⟨id, hid, hgpio⟩
    exact hnone id hid hgpio

theorem Numbered.find_issued (h : Numbered config s) {gpio : GpioPortPin} {id : Nat}
    (hissued : Issued config s.history gpio id) : findGpioInRegister s.world gpio = id := by
  obtain ⟨hid, hgpio⟩ := (h.issued_iff gpio id).mp hissued
  rcases find_cases s.world gpio with ⟨hlt, hfound⟩ | ⟨-, hnone⟩
  · exact h.distinct _ hlt _ hid (hfound.trans hgpio.symm)
  · exact absurd hgpio (hnone id hid)

theorem Numbered.pin (h : Numbered config s) {w : World} (hsame : SameNumbers s.world w) :
    Numbered config ⟨w, s.history⟩ where
  le := hsame.1 ▸ h.le
  distinct i hi j hj heq := by
    rw [hsame.2, hsame.2] at heq
    exact h.distinct i (hsame.1 ▸ hi) j (hsame.1 ▸ hj) heq
  issued_iff gpio id := by
    rw [hsame.2, hsame.1]
    exact h.issued_iff gpio id

/-- A registration that gives no new number. -/
theorem Numbered.known (h : Numbered config s) (c : Registration)
    (hknown : c.spec.gpio.port ≠ none → c.result < config.max →
      Issued config s.history c.spec.gpio c.result) :
    Numbered config ⟨s.world, c :: s.history⟩ where
  le := h.le
  distinct := h.distinct
  issued_iff gpio id := by
    rw [issued_cons, ← h.issued_iff]
    refine or_iff_left_of_imp ?_
    rintro ⟨hport, hid, rfl, rfl⟩
    exact hknown hport hid

theorem Numbered.register (h : Numbered config s) (spec : GpioDtSpec) (reply : Int) :
    Numbered config (s.call config (.register spec reply)) := by
  unfold GpioRun.call
  simp only
  rcases registerGpio_cases spec reply s.world with ⟨-, heq⟩ | ⟨-, hport, heq⟩ |
    ⟨-, -, hlt, heq⟩ | ⟨hroom, hport, hfind, heq⟩
  · rw [heq]
    exact h.known _ fun _ hlt => absurd hlt (enospc_not_lt config)
  · rw [heq]
    exact h.known _ fun hsome => absurd hport hsome
  · rw [heq]
    refine h.known _ fun _ _ => ?_
    rcases find_cases s.world spec.gpio with hfound | ⟨hend, -⟩
    · exact (h.issued_iff _ _).mpr hfound
    · omega
  · rw [heq]
    rcases find_cases s.world spec.gpio with ⟨hlt, -⟩ | ⟨-, hnone⟩
    · omega
    -- The slots below are as before, and the new one has the pin.
    have hold {i : Nat} (hi : i < s.world.nextFreeSlot) :
        (s.world.setPin s.world.nextFreeSlot spec.pin).supportedPins i =
          s.world.supportedPins i := Function.update_of_ne hi.ne _ _
    have hnew : (s.world.setPin s.world.nextFreeSlot spec.pin).supportedPins
        s.world.nextFreeSlot = spec.pin := Function.update_self _ _ _
    refine ⟨hroom, fun i hi j hj hij => ?_, fun gpio id => ?_⟩
    · simp only at hi hj hij
      rcases Nat.lt_succ_iff_lt_or_eq.mp hi with hi | rfl <;>
        rcases Nat.lt_succ_iff_lt_or_eq.mp hj with hj | rfl
      · rw [hold hi, hold hj] at hij
        exact h.distinct i hi j hj hij
      · rw [hold hi, hnew] at hij
        exact absurd hij (hnone i hi)
      · rw [hold hj, hnew] at hij
        exact absurd hij.symm (hnone j hj)
      · rfl
    · rw [issued_cons, h.issued_iff]
      simp only
      constructor
      · rintro (⟨hid, hgpio⟩ | ⟨-, -, rfl, rfl⟩)
        · exact ⟨Nat.lt_succ_of_lt hid, by rw [hold hid, hgpio]⟩
        · exact ⟨Nat.lt_succ_self _, by rw [hnew, GpioDtSpec.pin_gpio]⟩
      · rintro ⟨hid, hgpio⟩
        rcases Nat.lt_succ_iff_lt_or_eq.mp hid with hid | rfl
        · rw [hold hid] at hgpio
          exact .inl ⟨hid, hgpio⟩
        · rw [hnew, GpioDtSpec.pin_gpio] at hgpio
          exact .inr ⟨hgpio ▸ hport, hroom, hgpio, rfl⟩

theorem numbered_of_reached (h : (gpioRegistry config).Reachable s) : Numbered config s := by
  refine h.invariant ?_ ?_
  · rintro s ⟨hhistory, hnext⟩
    refine ⟨by omega, fun i hi => by omega, fun gpio id => ?_⟩
    rw [hhistory, hnext]
    simp [Issued]
  · rintro s (⟨spec, reply⟩ | ⟨gpioNumber, call⟩) s' hs - rfl
    · exact hs.register spec reply
    · exact hs.pin (sameNumbers_run gpioNumber call)

/-! ## The law -/

/-- A full table refuses everything. -/
theorem registered_full (h : Numbered config s) (spec : GpioDtSpec)
    (hfull : config.max ≤ s.world.nextFreeSlot) :
    Registered config s.history ⟨spec, enospc, s.world, s.world⟩ ↔
      spec.gpio.port ≠ none ∧ findGpioInRegister s.world spec.gpio = s.world.nextFreeSlot := by
  have hnot := enospc_not_lt config
  rw [h.find_eq_iff]
  constructor
  · intro hc
    refine ⟨fun hport => ?_, ?_⟩
    · exact absurd (hc.unused hport) (by decide : enospc ≠ gpioUnusedPin)
    · rintro ⟨id, hid⟩
      have hsame : enospc = id := hc.same id hid
      exact hnot (hsame ▸ hid.2.1)
  · rintro ⟨hport, hnew⟩
    refine ⟨fun hnone => absurd hnone hport, fun _ => .inr ⟨hnew, fun id hid => ?_⟩,
      fun _ hlt => absurd hlt hnot, fun id hid => absurd ⟨id, hid⟩ hnew, fun _ _ _ => rfl,
      fun _ hlt => absurd hlt hnot⟩
    exact ⟨_, (h.issued_iff _ id).mpr ⟨Nat.lt_of_lt_of_le hid hfull, rfl⟩⟩

theorem registered_unused (spec : GpioDtSpec) (hport : spec.gpio.port = none) :
    Registered config s.history ⟨spec, gpioUnusedPin, s.world, s.world⟩ :=
  ⟨fun _ => rfl, fun hsome => absurd hport hsome, fun hsome => absurd hport hsome,
    fun _ hid => absurd hport hid.1, fun _ _ _ => rfl, fun hsome => absurd hport hsome⟩

theorem registered_known (h : Numbered config s) (spec : GpioDtSpec)
    (hport : spec.gpio.port ≠ none)
    (hlt : findGpioInRegister s.world spec.gpio < s.world.nextFreeSlot) :
    Registered config s.history
      ⟨spec, findGpioInRegister s.world spec.gpio, s.world, s.world⟩ := by
  have hissued : ¬¬∃ id, Issued config s.history spec.gpio id := by
    rw [← h.find_eq_iff]
    exact hlt.ne
  rcases find_cases s.world spec.gpio with ⟨-, hgpio⟩ | ⟨heq, -⟩
  · refine ⟨fun hnone => absurd hnone hport, fun _ => .inl (Nat.lt_of_lt_of_le hlt h.le),
      fun _ _ gpio hid => ?_, fun id hid => h.find_issued hid, fun _ _ _ => rfl,
      fun _ _ hnew => absurd hnew hissued⟩
    exact ((h.issued_iff gpio _).mp hid).2.symm.trans hgpio
  · exact absurd heq hlt.ne

/-- A new pin gets the free number and is not configured. -/
theorem registered_new (h : Numbered config s) (spec : GpioDtSpec)
    (hroom : s.world.nextFreeSlot < config.max) (hport : spec.gpio.port ≠ none)
    (hfind : findGpioInRegister s.world spec.gpio = s.world.nextFreeSlot)
    (pin : SidGpioUtilPin) :
    Registered config s.history ⟨spec, s.world.nextFreeSlot, s.world,
      { s.world.setPin s.world.nextFreeSlot pin with
        initialized := true, nextFreeSlot := s.world.nextFreeSlot + 1 }⟩ ↔
      s.world.hardware spec.gpio = spec.dtFlags.toUInt32 &&& ~~~config.flags.intMask := by
  have hnew := (h.find_eq_iff spec.gpio).mp hfind
  constructor
  · intro hc
    exact hc.configured hport hroom hnew
  · intro hflags
    refine ⟨fun hnone => absurd hnone hport, fun _ => .inl hroom, fun _ _ gpio hid => ?_,
      fun id hid => absurd ⟨id, hid⟩ hnew, fun gpio id hid => ?_, fun _ _ _ => hflags⟩
    · exact absurd ((h.issued_iff _ _).mp hid).1 (Nat.lt_irrefl _)
    · have hlt := ((h.issued_iff _ _).mp hid).1
      exact Function.update_of_ne hlt.ne _ _

/-- The record that a registration leaves. -/
def GpioRun.registration (config : GpioConfig) (s : GpioRun) (spec : GpioDtSpec) (reply : Int) :
    Registration :=
  ⟨spec, (registerGpio config spec reply s.world).1, s.world,
    (registerGpio config spec reply s.world).2⟩

theorem registered_iff (h : Numbered config s) (spec : GpioDtSpec) (reply : Int) :
    Registered config s.history (s.registration config spec reply) ↔
      Heeded config s.world spec := by
  unfold GpioRun.registration Heeded
  rcases registerGpio_cases spec reply s.world with ⟨hfull, heq⟩ | ⟨hroom, hport, heq⟩ |
    ⟨hroom, hport, hlt, heq⟩ | ⟨hroom, hport, hfind, heq⟩
  · rw [heq, if_pos hfull]
    exact registered_full h spec hfull
  · rw [heq, if_neg (Nat.not_le.mpr hroom)]
    exact iff_of_true (registered_unused spec hport) fun hsome => absurd hport hsome
  · rw [heq, if_neg (Nat.not_le.mpr hroom)]
    exact iff_of_true (registered_known h spec hport hlt) fun _ hfind => absurd hfind hlt.ne
  · rw [heq, if_neg (Nat.not_le.mpr hroom), registered_new h spec hroom hport hfind]
    exact ⟨fun hflags _ _ => hflags, fun hheeded => hheeded hport hfind⟩

theorem lawful_cons {history : List Registration} {c : Registration} :
    Lawful config (c :: history) ↔ Registered config history c ∧ Lawful config history := by
  constructor
  · intro h
    refine ⟨h [] c history rfl, fun newer x older heq => ?_⟩
    exact h (c :: newer) x older (by rw [heq, List.cons_append])
  · rintro ⟨hc, hhistory⟩ newer x older heq
    rcases last_or_before heq with ⟨rfl, rfl⟩ | ⟨newer', heq'⟩
    · exact hc
    · exact hhistory newer' x older heq'

/-- Over every run the registrations are as they should be exactly if each of them heeds the two
limits of the code. -/
theorem lawful_iff (h : (gpioRegistry config).Reachable s) :
    Lawful config s.history ↔ ∀ c ∈ s.history, Heeded config c.before c.spec := by
  induction h with
  | init hinit =>
    rw [hinit.1]
    refine iff_of_true (fun newer c older heq => ?_) fun c hc => absurd hc List.not_mem_nil
    simp at heq
  | @step s s' call hs _ hstep ih =>
    subst hstep
    cases call with
    | register spec reply =>
      change Lawful config (s.registration config spec reply :: s.history) ↔
        ∀ c ∈ s.registration config spec reply :: s.history, _
      rw [lawful_cons, registered_iff (numbered_of_reached hs), ih, List.forall_mem_cons]
      exact Iff.rfl
    | pin gpioNumber call => exact ih

end

/-! ## A first registration -/

/-- Zephyr's values of the flags, and the default number of pins. -/
def zephyrGpio : GpioConfig where
  flags := ⟨0x10000, 0x20000, 0, 0x200000, 0x7E00000⟩
  max := 12
  max_lt := by decide

/-- No pin is registered, and all are configured in one way. -/
def unregistered (flags : UInt32) : GpioRun :=
  ⟨⟨fun _ => ⟨⟨none, 0⟩, 0, 0, none, 0⟩, 0, false, fun _ => flags⟩, []⟩

/-- A pin with a pull-up is registered. -/
def afterRegistration (flags : UInt32) : GpioRun :=
  (unregistered flags).call zephyrGpio (.register ⟨⟨some 0, 13⟩, 0x10⟩ 0)

theorem afterRegistration_reachable (flags : UInt32) :
    (gpioRegistry zephyrGpio).Reachable (afterRegistration flags) :=
  .step (a := .register ⟨⟨some 0, 13⟩, 0x10⟩ 0) (.init ⟨rfl, rfl⟩) trivial rfl

/-- The pull-up was there before. -/
theorem lawful_iff_preconfigured : Lawful zephyrGpio (afterRegistration 0x10).history ↔
    ∀ c ∈ (afterRegistration 0x10).history, Heeded zephyrGpio c.before c.spec :=
  lawful_iff (afterRegistration_reachable 0x10)

/-- The pin stays without its pull-up. -/
theorem pull_up_not_configured :
    ¬∀ s, (gpioRegistry zephyrGpio).Reachable s → Lawful zephyrGpio s.history := by
  intro h
  have hlaw := h _ (afterRegistration_reachable 0) [] _ [] rfl
  have hconfigured := hlaw.configured (by decide) (by decide) (by
    rintro ⟨id, -, -, c, hc, -⟩
    exact absurd hc List.not_mem_nil)
  exact absurd hconfigured (by decide)

end Sidewalk.Gpio
