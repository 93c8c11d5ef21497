import Sidewalk.App.SendCommand
import Sidewalk.Lib.CString
import Sidewalk.Lib.System

/-!
# The configuration of the location tracker

`cmd_dult_config` and `cmd_dult_set` read their options into parameters that begin as zeros, and the
Sidewalk thread works the parameters into the configuration. It cannot tell an option that was not
given from one that was given as zero.
-/

namespace Sidewalk.App.Dult

open Sidewalk.Lib

/-! ## Options -/

/-- What an option is followed by: the keys of texts, of numbers and of versions. -/
inductive Kind (T N V : Type)
  | reset
  | text (k : T)
  | number (k : N)
  | version (k : V)

/-- The options of a command, with the longest texts and the ranges of the numbers. -/
structure Options (T N V : Type) where
  kind : Arg → Option (Kind T N V)
  maximum : T → Nat
  range : N → Int × Int
  bytes : ∀ k, 0 ≤ (range k).1 ∧ (range k).2 ≤ 255

/-- The parameters of a command. -/
structure Params (T N V : Type) where
  reset : Bool
  text : T → Arg
  number : N → UInt8
  version : V → UInt16 × UInt8 × UInt8

/-- An option with the values that were typed. -/
inductive Given (T N V : Type)
  | text (k : T) (value : Arg)
  | number (k : N) (value : Int)
  | version (k : V) (major minor revision : Int)

variable {T N V : Type} [DecidableEq T] [DecidableEq N] [DecidableEq V]

/-- The value goes where the option says; a text is copied with `strncpy`. -/
def Params.take (params : Params T N V) (opts : Options T N V) : Given T N V → Params T N V
  | .text k value =>
    { params with text := Function.update params.text k (value.take (opts.maximum k)) }
  | .number k value =>
    { params with number := Function.update params.number k (UInt8.ofInt value) }
  | .version k major minor revision =>
    let version := (UInt16.ofInt major, UInt8.ofInt minor, UInt8.ofInt revision)
    { params with version := Function.update params.version k version }

/-- The parameters as allocated, and the options taken so far with the last one first. -/
structure Parsed (T N V : Type) where
  params : Params T N V
  given : List (Given T N V)

def Parsed.init : Parsed T N V := ⟨⟨false, fun _ => [], fun _ => 0, fun _ => (0, 0, 0)⟩, []⟩

def Parsed.take (s : Parsed T N V) (opts : Options T N V) (given : Given T N V) : Parsed T N V :=
  ⟨s.params.take opts given, given :: s.given⟩

/-- `strtol` with its checks. -/
def readNumber (range : Int × Int) (arg : Arg) : Option Int :=
  match strtol arg with
  | some value => if range.1 ≤ value ∧ value ≤ range.2 then some value else none
  | none => none

def readVersion (major minor revision : Arg) : Option (Int × Int × Int) := do
  let major ← readNumber (0, 65535) major
  let minor ← readNumber (0, 255) minor
  let revision ← readNumber (0, 255) revision
  pure (major, minor, revision)

/-- How the loop over the arguments ends. -/
inductive ParseEnd
  | finished
  | reset
  | invalid
  /-- `argv[argc]` is read. -/
  | outside
  deriving DecidableEq

/-- The loop, with the arguments from `opt` on. -/
def parseOptions (opts : Options T N V) : List Arg → Parsed T N V → ParseEnd × Parsed T N V
  | [], s => (.finished, s)
  | arg :: rest, s =>
    match opts.kind arg with
    | none => parseOptions opts rest s
    | some .reset => (.reset, { s with params := { s.params with reset := true } })
    | some (.text k) =>
      match rest with
      | [] => (.invalid, s)
      | value :: rest =>
        if value.length > opts.maximum k then (.invalid, s)
        else parseOptions opts rest (s.take opts (.text k value))
    | some (.number k) =>
      match rest with
      | [] => (.invalid, s)
      | value :: rest =>
        match readNumber (opts.range k) value with
        | none => (.invalid, s)
        | some value => parseOptions opts rest (s.take opts (.number k value))
    | some (.version k) =>
      match rest with
      | major :: minor :: revision :: rest =>
        match readVersion major minor revision with
        | none => (.invalid, s)
        | some (major, minor, revision) =>
          parseOptions opts rest (s.take opts (.version k major minor revision))
      -- `opt + 3 > argc` holds with one argument less.
      | [_, _] => (.outside, s)
      | _ => (.invalid, s)

/-- The event that is queued, with its context where it has one. -/
abbrev DultEvent (T N V : Type) := Option (Nat × Parsed T N V)

/-- The result, none where `argv[argc]` was read, the event that the queue took, and the heap. -/
structure DultResult (T N V : Type) where
  ret : Option Int
  event : Option (DultEvent T N V)
  heap : Heap

/-- What both commands do. `room` is whether the context can be allocated, and `sent` what the queue
answers. -/
def dultCommand (opts : Options T N V) (optional size : Nat) (argv : List Arg) (room : Bool)
    (sent : Int) (heap : Heap) : DultResult T N V :=
  if argv.length < 1 ∨ argv.length > 1 + optional then ⟨some (-einval), none, heap⟩
  else if argv.length = 1 then ⟨some sent, if sent = 0 then some none else none, heap⟩
  else
    match heap.malloc room size with
    | (none, heap) => ⟨some (-enomem), none, heap⟩
    | (some params, heap) =>
      match parseOptions opts argv.tail .init with
      | (.invalid, _) => ⟨some (-einval), none, heap.free params⟩
      | (.outside, _) => ⟨none, none, heap⟩
      | (_, s) =>
        if sent = 0 then ⟨some 0, some (some (params, s)), heap⟩
        else ⟨some (-enomsg), none, heap.free params⟩

/-! ## The commands -/

/-- The texts of `struct dult_config_params`, with the arrays of `dult_conf` they go to. -/
inductive TextKey
  | productData
  | manufacturerData
  | modelData
  | identifier
  deriving DecidableEq

/-- The numbers of `struct dult_config_params`. -/
inductive NumberKey
  | categoryId
  | networkId
  | batteryType
  | advertisingMode
  | initialProximity
  deriving DecidableEq

/-- The options "-r", "-p", "-m", "-o", "-i", "-f", "-c", "-n", "-b", "-a" and "-im". -/
def configKind (arg : Arg) : Option (Kind TextKey NumberKey Unit) :=
  if arg = [0x2D, 0x72] then some .reset
  else if arg = [0x2D, 0x70] then some (.text .productData)
  else if arg = [0x2D, 0x6D] then some (.text .manufacturerData)
  else if arg = [0x2D, 0x6F] then some (.text .modelData)
  else if arg = [0x2D, 0x69] then some (.text .identifier)
  else if arg = [0x2D, 0x66] then some (.version ())
  else if arg = [0x2D, 0x63] then some (.number .categoryId)
  else if arg = [0x2D, 0x6E] then some (.number .networkId)
  else if arg = [0x2D, 0x62] then some (.number .batteryType)
  else if arg = [0x2D, 0x61] then some (.number .advertisingMode)
  else if arg = [0x2D, 0x69, 0x6D] then some (.number .initialProximity)
  else none

def configOptions : Options TextKey NumberKey Unit where
  kind := configKind
  maximum
    | .productData => 8
    | .manufacturerData | .modelData => 64
    | .identifier => 32
  range
    | .categoryId => (1, 167)
    | .networkId => (1, 3)
    | .batteryType => (0, 2)
    | .advertisingMode | .initialProximity => (0, 1)
  bytes k := by cases k <;> decide

abbrev DultConfigParams := Params TextKey NumberKey Unit

def cmdDultConfig (size : Nat) : List Arg → Bool → Int → Heap → DultResult TextKey NumberKey Unit :=
  dultCommand configOptions 20 size

/-- The numbers of `struct dult_set_params`. -/
inductive SetKey
  | proximityState
  | ignoreNonOwnerEvents
  | nonOwnerFindStatus
  | identifierReadMode
  | batteryLevel
  deriving DecidableEq

/-- The options "-r", "-m", "-o", "-s", "-i" and "-l". -/
def setKind (arg : Arg) : Option (Kind Empty SetKey Empty) :=
  if arg = [0x2D, 0x72] then some .reset
  else if arg = [0x2D, 0x6D] then some (.number .proximityState)
  else if arg = [0x2D, 0x6F] then some (.number .ignoreNonOwnerEvents)
  else if arg = [0x2D, 0x73] then some (.number .nonOwnerFindStatus)
  else if arg = [0x2D, 0x69] then some (.number .identifierReadMode)
  else if arg = [0x2D, 0x6C] then some (.number .batteryLevel)
  else none

def setOptions : Options Empty SetKey Empty where
  kind := setKind
  maximum := Empty.elim
  range
    | .batteryLevel => (0, 3)
    | _ => (0, 1)
  bytes k := by cases k <;> decide

abbrev DultSetParams := Params Empty SetKey Empty

def cmdDultSet (size : Nat) : List Arg → Bool → Int → Heap → DultResult Empty SetKey Empty :=
  dultCommand setOptions 10 size

/-! ## The configuration -/

/-- The arrays of `struct dult_config`. -/
def TextKey.size : TextKey → Nat
  | .identifier => 32
  | _ => 64

/-- `struct dult_config` and the two variables behind it. -/
structure DultConfig where
  text : (k : TextKey) → Region k.size
  identSize : UInt8
  firmwareVersion : UInt32
  number : NumberKey → UInt8
  batteryLevel : UInt8
  ignoreNonOwnerEvents : Bool
  nonOwnerFindStatus : Bool

/-- The texts "dut", "sidewalk" and "sidewalk example". -/
def defaultText : TextKey → Arg
  | .productData => [0x64, 0x75, 0x74]
  | .manufacturerData => [0x73, 0x69, 0x64, 0x65, 0x77, 0x61, 0x6C, 0x6B]
  | .modelData => [0x73, 0x69, 0x64, 0x65, 0x77, 0x61, 0x6C, 0x6B, 0x20, 0x65, 0x78, 0x61, 0x6D,
      0x70, 0x6C, 0x65]
  | .identifier => []

/-- `reset_dult_config`. -/
def resetDultConfig (conf : DultConfig) : DultConfig :=
  { conf with
    text := fun k => ⟨Mem.blit (fun _ => 0) 0 (defaultText k)⟩
    identSize := 0
    firmwareVersion := 0x010000
    number := fun
      | .categoryId => 1
      | .networkId => 3
      | .batteryType => 0
      | .advertisingMode => 1
      | .initialProximity => 1
    batteryLevel := 0 }

/-- The condition under which a number is taken over. -/
def NumberKey.updates : NumberKey → UInt8 → Bool
  | .categoryId, value | .networkId, value => value > 0
  | .batteryType, value => value ≤ 2
  | .advertisingMode, value | .initialProximity, value => value ≤ 1

/-- A text that is not empty is copied. -/
def DultConfig.copyText (conf : DultConfig) (params : DultConfigParams) (k : TextKey) :
    Checked DultConfig :=
  if 0 < (params.text k).length then do
    let array ← (conf.text k).strncpy (params.text k) (k.size - 1)
    pure { conf with text := Function.update conf.text k array }
  else pure conf

def packVersion (version : UInt16 × UInt8 × UInt8) : UInt32 :=
  (version.1.toUInt32 <<< 16) ||| (version.2.1.toUInt32 <<< 8) ||| version.2.2.toUInt32

/-- `dult_event_config` with a context. -/
def dultEventConfig (params : DultConfigParams) (conf : DultConfig) : Checked DultConfig :=
  if params.reset then pure (resetDultConfig conf)
  else do
    let conf ← conf.copyText params .productData
    let conf ← conf.copyText params .manufacturerData
    let conf ← conf.copyText params .modelData
    let conf ← conf.copyText params .identifier
    let identifier := params.text .identifier
    let version := params.version ()
    pure { conf with
      identSize := if 0 < identifier.length then UInt8.ofNat identifier.length else conf.identSize
      firmwareVersion := if version.1 > 0 ∨ version.2.1 > 0 ∨ version.2.2 > 0 then
        packVersion version else conf.firmwareVersion
      number := fun k => if k.updates (params.number k) then params.number k else conf.number k }

/-- `dult_event_set` with a context; the proximity state and the identifier read mode go nowhere. -/
def dultEventSet (params : DultSetParams) (conf : DultConfig) : DultConfig :=
  if params.reset then
    { conf with ignoreNonOwnerEvents := false, nonOwnerFindStatus := true, batteryLevel := 0 }
  else
    { conf with
      ignoreNonOwnerEvents := if params.number .ignoreNonOwnerEvents ≤ 1 then
        params.number .ignoreNonOwnerEvents ≠ 0 else conf.ignoreNonOwnerEvents
      nonOwnerFindStatus := if params.number .nonOwnerFindStatus ≤ 1 then
        params.number .nonOwnerFindStatus ≠ 0 else conf.nonOwnerFindStatus
      batteryLevel := if params.number .batteryLevel ≤ 3 then params.number .batteryLevel
        else conf.batteryLevel }

/-! ## The loop -/

section

variable {opts : Options T N V} {s s' : Parsed T N V} {used args : List Arg}

/-- A round of the loop that goes on, and the arguments that it uses. -/
inductive Round (opts : Options T N V) (s : Parsed T N V) : List Arg → Parsed T N V → Prop
  | skip {arg : Arg} : opts.kind arg = none → Round opts s [arg] s
  | text {arg value : Arg} {k : T} :
      opts.kind arg = some (.text k) → value.length ≤ opts.maximum k →
      Round opts s [arg, value] (s.take opts (.text k value))
  | number {arg value : Arg} {k : N} {v : Int} :
      opts.kind arg = some (.number k) → readNumber (opts.range k) value = some v →
      Round opts s [arg, value] (s.take opts (.number k v))
  | version {arg major minor revision : Arg} {k : V} {a b c : Int} :
      opts.kind arg = some (.version k) → readVersion major minor revision = some (a, b, c) →
      Round opts s [arg, major, minor, revision] (s.take opts (.version k a b c))

/-- How the loop runs. -/
inductive Parses (opts : Options T N V) :
    List Arg → Parsed T N V → ParseEnd × Parsed T N V → Prop
  | finished {s : Parsed T N V} : Parses opts [] s (.finished, s)
  | reset {args : List Arg} {s : Parsed T N V} :
      Parses opts args s (.reset, { s with params := { s.params with reset := true } })
  | invalid {args : List Arg} {s : Parsed T N V} : Parses opts args s (.invalid, s)
  | outside {s : Parsed T N V} {arg a b : Arg} {k : V} :
      opts.kind arg = some (.version k) → Parses opts [arg, a, b] s (.outside, s)
  | round {s s' : Parsed T N V} {used rest : List Arg} {r : ParseEnd × Parsed T N V} :
      Round opts s used s' → Parses opts rest s' r → Parses opts (used ++ rest) s r

theorem parses (opts : Options T N V) (args : List Arg) (s : Parsed T N V) :
    Parses opts args s (parseOptions opts args s) := by
  fun_induction parseOptions opts args s with
  | case1 => exact .finished
  | case2 _ _ _ hkind ih => exact .round (.skip hkind) ih
  | case3 => exact .reset
  | case6 _ _ _ hkind _ _ hfits ih => exact .round (.text hkind (not_lt.mp hfits)) ih
  | case9 _ _ _ hkind _ _ _ hvalue ih => exact .round (.number hkind hvalue) ih
  | case11 _ _ _ hkind _ _ _ _ _ _ _ hvalues ih => exact .round (.version hkind hvalues) ih
  | case12 _ _ _ hkind => exact .outside hkind
  | _ => exact .invalid

theorem Round.parse (h : Round opts s used s') (rest : List Arg) :
    parseOptions opts (used ++ rest) s = parseOptions opts rest s' := by
  cases h with
  | skip hkind => simp only [List.singleton_append, parseOptions, hkind]
  | text hkind hfits =>
    simp only [List.cons_append, List.nil_append, parseOptions, hkind, if_neg hfits.not_gt]
  | number hkind hvalue =>
    simp only [List.cons_append, List.nil_append, parseOptions, hkind, hvalue]
  | version hkind hvalues =>
    simp only [List.cons_append, List.nil_append, parseOptions, hkind, hvalues]

/-- Behind arguments that are used up, the loop goes on with the others. -/
theorem parse_append {r : ParseEnd × Parsed T N V} (h : Parses opts args s r)
    (hend : r.1 = .finished) (rest : List Arg) :
    parseOptions opts (args ++ rest) s = parseOptions opts rest r.2 := by
  induction h with
  | finished => rfl
  | reset => cases hend
  | invalid => cases hend
  | outside => cases hend
  | round hround _ ih => rw [List.append_assoc, hround.parse, ih hend]

/-- `argv[argc]` is read where a version has two of its three values. -/
theorem parse_outside_iff :
    (parseOptions opts args s).1 = .outside ↔
      ∃ before arg a b k, args = before ++ [arg, a, b] ∧ opts.kind arg = some (.version k) ∧
        (parseOptions opts before s).1 = .finished := by
  constructor
  · intro hend
    have h := parses opts args s
    generalize parseOptions opts args s = r at h hend
    induction h with
    | finished => cases hend
    | reset => cases hend
    | invalid => cases hend
    | outside hkind => exact ⟨[], _, _, _, _, rfl, hkind, rfl⟩
    | round hround _ ih =>
      obtain ⟨before, arg, a, b, k, rfl, hkind, hbefore⟩ := ih hend
      refine ⟨_ ++ before, arg, a, b, k, (List.append_assoc ..).symm, hkind, ?_⟩
      rw [hround.parse, hbefore]
  · rintro ⟨before, arg, a, b, k, rfl, hkind, hbefore⟩
    rw [parse_append (parses opts before s) hbefore]
    simp only [parseOptions, hkind]

/-! ## What was given -/

/-- The last text that was given for a key. -/
def lastText (k : T) (given : List (Given T N V)) : Option Arg :=
  given.findSome? fun
    | .text k' value => if k' = k then some value else none
    | _ => none

def lastNumber (k : N) (given : List (Given T N V)) : Option Int :=
  given.findSome? fun
    | .number k' value => if k' = k then some value else none
    | _ => none

def lastVersion (k : V) (given : List (Given T N V)) : Option (Int × Int × Int) :=
  given.findSome? fun
    | .version k' major minor revision => if k' = k then some (major, minor, revision) else none
    | _ => none

/-- An option with values that its command takes. -/
inductive Given.Valid (opts : Options T N V) : Given T N V → Prop
  | text {k : T} {value : Arg} :
      value.length ≤ opts.maximum k → 0 ∉ value → Valid opts (.text k value)
  | number {k : N} {value : Int} :
      (opts.range k).1 ≤ value → value ≤ (opts.range k).2 → Valid opts (.number k value)
  | version {k : V} {major minor revision : Int} :
      0 ≤ major → major ≤ 65535 → 0 ≤ minor → minor ≤ 255 → 0 ≤ revision → revision ≤ 255 →
      Valid opts (.version k major minor revision)

/-- The numbers of a version. -/
def parts (version : UInt16 × UInt8 × UInt8) : Int × Int × Int :=
  (version.1.toNat, version.2.1.toNat, version.2.2.toNat)

/-- The parameters are what was given last, and zeros. -/
structure Parsed.Sound (opts : Options T N V) (s : Parsed T N V) : Prop where
  valid : ∀ given ∈ s.given, given.Valid opts
  text : ∀ k, s.params.text k = (lastText k s.given).getD []
  number : ∀ k, ((s.params.number k).toNat : Int) = (lastNumber k s.given).getD 0
  version : ∀ k, parts (s.params.version k) = (lastVersion k s.given).getD (0, 0, 0)

theorem Parsed.Sound.init : (Parsed.init : Parsed T N V).Sound opts where
  valid _ h := absurd h List.not_mem_nil
  text _ := rfl
  number _ := rfl
  version _ := rfl

theorem toNat_ofInt8 {v : Int} (h : 0 ≤ v) (h' : v ≤ 255) : ((UInt8.ofInt v).toNat : Int) = v := by
  rw [UInt8.ofInt, UInt8.toNat_ofNat']
  omega

theorem toNat_ofInt16 {v : Int} (h : 0 ≤ v) (h' : v ≤ 65535) :
    ((UInt16.ofInt v).toNat : Int) = v := by
  rw [UInt16.ofInt, UInt16.toNat_ofNat']
  omega

/-- The option that is taken is the last one of its key. -/
theorem Parsed.Sound.take (h : s.Sound opts) {given : Given T N V} (hvalid : given.Valid opts) :
    (s.take opts given).Sound opts := by
  have hall : ∀ g ∈ (s.take opts given).given, g.Valid opts :=
    List.forall_mem_cons.mpr ⟨hvalid, h.valid⟩
  cases hvalid with
  | @text k value hfits hnonzero =>
    refine ⟨hall, fun k' => ?_, h.number, h.version⟩
    change Function.update s.params.text k (value.take (opts.maximum k)) k' = _
    rw [List.take_of_length_le hfits]
    by_cases hkey : k = k'
    · subst hkey
      simp [Parsed.take, lastText]
    · simpa [Parsed.take, lastText, hkey, Function.update_of_ne (Ne.symm hkey)] using h.text k'
  | @number k value hlow hhigh =>
    refine ⟨hall, h.text, fun k' => ?_, h.version⟩
    change ((Function.update s.params.number k (UInt8.ofInt value) k').toNat : Int) = _
    by_cases hkey : k = k'
    · subst hkey
      have hbytes := opts.bytes k
      simp [Parsed.take, lastNumber, toNat_ofInt8 (hbytes.1.trans hlow) (hhigh.trans hbytes.2)]
    · simpa [Parsed.take, lastNumber, hkey, Function.update_of_ne (Ne.symm hkey)]
        using h.number k'
  | @version k major minor revision h₁ h₂ h₃ h₄ h₅ h₆ =>
    refine ⟨hall, h.text, h.number, fun k' => ?_⟩
    have hversion := h.version k'
    by_cases hkey : k = k'
    · subst hkey
      simp [Parsed.take, Params.take, lastVersion, parts, toNat_ofInt16 h₁ h₂,
        toNat_ofInt8 h₃ h₄, toNat_ofInt8 h₅ h₆]
    · simpa [Parsed.take, Params.take, lastVersion, hkey, Function.update_of_ne (Ne.symm hkey)]
        using hversion

theorem readNumber_eq_some {range : Int × Int} {arg : Arg} {v : Int}
    (h : readNumber range arg = some v) : range.1 ≤ v ∧ v ≤ range.2 := by
  unfold readNumber at h
  split at h
  · split at h
    · next hrange =>
      cases h
      exact hrange
    · cases h
  · cases h

theorem readVersion_eq_some {major minor revision : Arg} {a b c : Int}
    (h : readVersion major minor revision = some (a, b, c)) :
    (0 ≤ a ∧ a ≤ 65535) ∧ (0 ≤ b ∧ b ≤ 255) ∧ 0 ≤ c ∧ c ≤ 255 := by
  simp only [readVersion, Option.bind_eq_bind, Option.bind_eq_some_iff, Option.pure_def,
    Option.some.injEq, Prod.mk.injEq] at h
  obtain ⟨_, ha, _, hb, _, hc, rfl, rfl, rfl⟩ := h
  exact ⟨readNumber_eq_some ha, readNumber_eq_some hb, readNumber_eq_some hc⟩

theorem Round.sound (h : Round opts s used s') (hs : s.Sound opts)
    (hused : ∀ arg ∈ used, (0 : UInt8) ∉ arg) : s'.Sound opts := by
  cases h with
  | skip => exact hs
  | text _ hfits => exact hs.take (.text hfits (hused _ (.tail _ List.mem_cons_self)))
  | number _ hvalue =>
    obtain ⟨hlow, hhigh⟩ := readNumber_eq_some hvalue
    exact hs.take (.number hlow hhigh)
  | version _ hvalues =>
    obtain ⟨⟨h₁, h₂⟩, ⟨h₃, h₄⟩, h₅, h₆⟩ := readVersion_eq_some hvalues
    exact hs.take (.version h₁ h₂ h₃ h₄ h₅ h₆)

/-- The arguments are strings, which hold no zero. -/
theorem Parses.sound {r : ParseEnd × Parsed T N V} (h : Parses opts args s r) (hs : s.Sound opts)
    (hargs : ∀ arg ∈ args, (0 : UInt8) ∉ arg) : r.2.Sound opts := by
  induction h with
  | finished => exact hs
  | reset => exact ⟨hs.valid, hs.text, hs.number, hs.version⟩
  | invalid => exact hs
  | outside => exact hs
  | round hround _ ih =>
    rw [List.forall_mem_append] at hargs
    exact ih (hround.sound hs hargs.1) hargs.2

end

/-! ## The configuration behind an event -/

/-- A text of the configuration: the identifier by its size, the others up to their terminators. -/
def DultConfig.shows (conf : DultConfig) (k : TextKey) : Arg :=
  if k = .identifier then (conf.text k).bytes.slice 0 conf.identSize.toNat
  else ((conf.text k).bytes.slice 0 k.size).takeWhile (· ≠ 0)

/-- The arrays end in zeros, and the identifier is inside its array. -/
structure DultConfig.Sound (conf : DultConfig) : Prop where
  ends : ∀ k, (conf.text k).bytes (k.size - 1) = 0
  inside : conf.identSize.toNat ≤ TextKey.identifier.size

/-- The array of a text behind its copy. -/
def DultConfig.copied (conf : DultConfig) (params : DultConfigParams) (k : TextKey) :
    Region k.size :=
  if 0 < (params.text k).length then
    ⟨(conf.text k).bytes.blit 0 ((params.text k).take (k.size - 1) ++
      List.replicate (k.size - 1 - (params.text k).length) 0)⟩
  else conf.text k

/-- The configuration behind an event that does not reset. -/
def DultConfig.updated (conf : DultConfig) (params : DultConfigParams) : DultConfig :=
  { conf with
    text := conf.copied params
    identSize := if 0 < (params.text .identifier).length then
      UInt8.ofNat (params.text .identifier).length else conf.identSize
    firmwareVersion := if (params.version ()).1 > 0 ∨ (params.version ()).2.1 > 0 ∨
      (params.version ()).2.2 > 0 then packVersion (params.version ()) else conf.firmwareVersion
    number := fun k => if k.updates (params.number k) then params.number k else conf.number k }

section

variable {conf : DultConfig} {params : DultConfigParams} {k : TextKey}

theorem length_copy (text : Arg) (n : Nat) :
    (text.take n ++ List.replicate (n - text.length) (0 : UInt8)).length = n := by
  rw [List.length_append, List.length_take, List.length_replicate]
  omega

theorem copyText_eq (conf : DultConfig) (params : DultConfigParams) (k : TextKey) :
    conf.copyText params k =
      .ok { conf with text := Function.update conf.text k (conf.copied params k) } := by
  unfold DultConfig.copyText DultConfig.copied
  split
  · have hsize : 0 + ((params.text k).take (k.size - 1) ++
        List.replicate (k.size - 1 - (params.text k).length) 0).length ≤ k.size := by
      rw [length_copy]
      omega
    rw [Region.strncpy, Region.write_ok hsize]
    rfl
  · rw [Function.update_eq_self]
    rfl

theorem dultEventConfig_eq (h : params.reset = false) :
    dultEventConfig params conf = .ok (conf.updated params) := by
  have hall : conf.copied params = Function.update (Function.update (Function.update
      (Function.update conf.text .productData (conf.copied params .productData))
      .manufacturerData (conf.copied params .manufacturerData)) .modelData
      (conf.copied params .modelData)) .identifier (conf.copied params .identifier) := by
    funext k
    cases k <;> simp
  rw [dultEventConfig, h, if_neg Bool.false_ne_true, DultConfig.updated, hall]
  simp only [copyText_eq, checked_ok_bind]
  rfl

/-- An array behind its copy. -/
theorem slice_copy (m : Mem) (text : Arg) (n : Nat) (hend : m n = 0) :
    (m.blit 0 (text.take n ++ List.replicate (n - text.length) 0)).slice 0 (n + 1) =
      text.take n ++ List.replicate (n - text.length + 1) 0 := by
  have hlen := length_copy text n
  generalize hbs : text.take n ++ List.replicate (n - text.length) 0 = bs at hlen
  have habove : m.blit 0 bs n = 0 := by rw [Mem.blit_above (by omega), hend]
  rw [Mem.slice_add, ← hlen, Mem.slice_blit, Nat.zero_add, hlen, Mem.slice_succ, Mem.slice_zero,
    habove, ← hbs, List.append_assoc, List.replicate_succ']

/-- A text that fits is shown, and one that does not fit is cut. -/
theorem shows_updated (hconf : conf.Sound) (hne : params.text k ≠ [])
    (hmaximum : (params.text k).length ≤ configOptions.maximum k) (hnonzero : 0 ∉ params.text k) :
    (conf.updated params).shows k = params.text k ↔ (params.text k).length < k.size := by
  have hpos := List.length_pos_iff.mpr hne
  have hslice := slice_copy (conf.text k).bytes (params.text k) (k.size - 1) (hconf.ends k)
  have hsize : k.size - 1 + 1 = k.size := by cases k <;> rfl
  rw [hsize] at hslice
  have harray : (conf.updated params).text k = ⟨(conf.text k).bytes.blit 0
      ((params.text k).take (k.size - 1) ++
        List.replicate (k.size - 1 - (params.text k).length) 0)⟩ := if_pos hpos
  unfold DultConfig.shows
  rw [harray]
  split
  · next hkey =>
    subst hkey
    have hmax : (params.text .identifier).length ≤ 32 := hmaximum
    have hident : (conf.updated params).identSize.toNat = (params.text .identifier).length := by
      rw [DultConfig.updated, if_pos hpos, UInt8.toNat_ofNat']
      omega
    rw [hident, ← Mem.take_slice _ _ (show _ ≤ TextKey.identifier.size from hmax), hslice]
    constructor
    · -- The last byte of the array is a zero, which no text has.
      intro heq
      by_contra hlong
      have hlen : (params.text .identifier).length = 32 := by
        simp only [TextKey.size] at hlong
        omega
      apply hnonzero
      rw [← heq, hlen]
      simp [TextKey.size, hlen, List.take_append]
    · intro hfits
      have hle : (params.text .identifier).length ≤ TextKey.identifier.size - 1 := by omega
      rw [List.take_of_length_le hle, List.take_left']
      rfl
  · next hkey =>
    have hnot : ∀ b ∈ (params.text k).take (k.size - 1), decide (b ≠ 0) = true := by
      intro b hb
      have hmem := List.mem_of_mem_take hb
      rw [decide_eq_true_eq]
      rintro rfl
      exact hnonzero hmem
    rw [hslice, List.takeWhile_append_of_pos hnot, List.replicate_succ, List.takeWhile_cons]
    simp only [ne_eq, not_true, decide_false, Bool.false_eq_true, if_false, List.append_nil]
    rw [List.take_eq_self_iff]
    omega

/-- A text that is empty is not copied. -/
theorem shows_updated_nil (h : params.text k = []) :
    (conf.updated params).shows k = conf.shows k := by
  have hnot : ¬0 < (params.text k).length := by rw [h, List.length_nil]; exact Nat.lt_irrefl 0
  have harray : (conf.updated params).text k = conf.text k := if_neg hnot
  unfold DultConfig.shows
  rw [harray]
  split
  · next hkey =>
    subst hkey
    rw [DultConfig.updated, if_neg hnot]
  · rfl

/-! ## What a command is worth -/

/-- The number that a version is stored as. -/
def weigh (version : Int × Int × Int) : Int :=
  version.1 * 65536 + version.2.1 * 256 + version.2.2

theorem toNat_packVersion (version : UInt16 × UInt8 × UInt8) :
    ((packVersion version).toNat : Int) = weigh (parts version) := by
  obtain ⟨major, minor, revision⟩ := version
  have h₁ := major.toNat_lt
  have h₂ := minor.toNat_lt
  have h₃ := revision.toNat_lt
  -- the three parts do not overlap
  have hhigh := Nat.two_pow_add_eq_or_of_lt (i := 16) (b := 256 * minor.toNat) (by omega)
    major.toNat
  have hlow := Nat.two_pow_add_eq_or_of_lt (i := 8) (b := revision.toNat) (by omega)
    (256 * major.toNat + minor.toNat)
  have hall : (packVersion (major, minor, revision)).toNat =
      65536 * major.toNat ||| 256 * minor.toNat ||| revision.toNat := by
    simp only [packVersion, UInt32.toNat_or, UInt32.toNat_shiftLeft, UInt8.toNat_toUInt32,
      UInt16.toNat_toUInt32, Nat.shiftLeft_eq, UInt32.reduceToNat, Nat.reduceMod, Nat.reducePow]
    congr 2 <;> omega
  have hsum : 65536 * major.toNat + 256 * minor.toNat =
      256 * (256 * major.toNat + minor.toNat) := by omega
  rw [hall, ← hhigh, hsum, ← hlow]
  simp only [weigh, parts]
  omega

theorem positive_iff (version : UInt16 × UInt8 × UInt8) :
    (version.1 > 0 ∨ version.2.1 > 0 ∨ version.2.2 > 0) ↔ parts version ≠ (0, 0, 0) := by
  obtain ⟨major, minor, revision⟩ := version
  simp only [parts, gt_iff_lt, UInt16.lt_iff_toNat_lt, UInt8.lt_iff_toNat_lt, ne_eq,
    Prod.mk.injEq, UInt16.toNat_zero, UInt8.toNat_zero]
  omega

/-- Each setting is the last one given, and the settings that were not given are as before. -/
structure Honoured (given : List (Given TextKey NumberKey Unit)) (conf conf' : DultConfig) :
    Prop where
  text : ∀ k, conf'.shows k = (lastText k given).getD (conf.shows k)
  version : (conf'.firmwareVersion.toNat : Int) =
    ((lastVersion () given).map weigh).getD conf.firmwareVersion.toNat
  number : ∀ k, ((conf'.number k).toNat : Int) =
    (lastNumber k given).getD (conf.number k).toNat

/-- No text is empty or as long as its array, no version is zero, and the battery type, the
advertising mode and the initial proximity are given, where this makes a difference. -/
structure Kept (given : List (Given TextKey NumberKey Unit)) (conf : DultConfig) : Prop where
  text : ∀ k value, lastText k given = some value →
    value.length < k.size ∧ (value = [] → conf.shows k = [])
  version : lastVersion () given = some (0, 0, 0) → conf.firmwareVersion = 0
  number : ∀ k, k ≠ .categoryId → k ≠ .networkId → lastNumber k given = none → conf.number k = 0

theorem text_mem {given : List (Given TextKey NumberKey Unit)} {value : Arg}
    (h : lastText k given = some value) : .text k value ∈ given := by
  obtain ⟨g, hmem, hg⟩ := List.exists_of_findSome?_eq_some h
  cases g with
  | text k' value' =>
    simp only [Option.ite_none_right_eq_some, Option.some.injEq] at hg
    obtain ⟨rfl, rfl⟩ := hg
    exact hmem
  | number k' value' => cases hg
  | version k' major minor revision => cases hg

omit [DecidableEq T] [DecidableEq V] in
theorem number_mem {given : List (Given T N V)} {key : N} {value : Int}
    (h : lastNumber key given = some value) : .number key value ∈ given := by
  obtain ⟨g, hmem, hg⟩ := List.exists_of_findSome?_eq_some h
  cases g with
  | text k' value' => cases hg
  | number k' value' =>
    simp only [Option.ite_none_right_eq_some, Option.some.injEq] at hg
    obtain ⟨rfl, rfl⟩ := hg
    exact hmem
  | version k' major minor revision => cases hg

variable {s : Parsed TextKey NumberKey Unit}

theorem text_honoured_iff (hs : s.Sound configOptions) (hconf : conf.Sound) (k : TextKey) :
    (conf.updated s.params).shows k = (lastText k s.given).getD (conf.shows k) ↔
      ∀ value, lastText k s.given = some value →
        value.length < k.size ∧ (value = [] → conf.shows k = []) := by
  have htext := hs.text k
  cases hlast : lastText k s.given with
  | none =>
    rw [hlast, Option.getD_none] at htext
    exact iff_of_true (shows_updated_nil htext) (fun _ h => by cases h)
  | some value =>
    rw [hlast, Option.getD_some] at htext
    simp only [Option.getD_some, Option.some.injEq, forall_eq']
    by_cases hne : value = []
    · subst hne
      have hsize : 0 < k.size := by cases k <;> decide
      rw [shows_updated_nil htext]
      simp [hsize]
    · obtain ⟨hmaximum, hnonzero⟩ : value.length ≤ configOptions.maximum k ∧ 0 ∉ value := by
        cases hs.valid _ (text_mem hlast) with
        | text hmaximum hnonzero => exact ⟨hmaximum, hnonzero⟩
      rw [← htext] at hne hmaximum hnonzero ⊢
      rw [shows_updated hconf hne hmaximum hnonzero]
      simp [hne]

theorem version_honoured_iff (hs : s.Sound configOptions) :
    ((conf.updated s.params).firmwareVersion.toNat : Int) =
        ((lastVersion () s.given).map weigh).getD conf.firmwareVersion.toNat ↔
      (lastVersion () s.given = some (0, 0, 0) → conf.firmwareVersion = 0) := by
  have hversion := hs.version ()
  have hupdated : (conf.updated s.params).firmwareVersion =
      if parts (s.params.version ()) ≠ (0, 0, 0) then packVersion (s.params.version ())
      else conf.firmwareVersion := if_congr (positive_iff _) rfl rfl
  have hzero : ((conf.firmwareVersion.toNat : Int) = 0) ↔ conf.firmwareVersion = 0 := by
    rw [← UInt32.toNat_inj]
    exact Int.natCast_eq_zero
  rw [hupdated]
  cases hlast : lastVersion () s.given with
  | none =>
    rw [hlast, Option.getD_none] at hversion
    simp [hversion]
  | some version =>
    rw [hlast, Option.getD_some] at hversion
    rw [hversion]
    by_cases hne : version = (0, 0, 0)
    · subst hne
      simpa [weigh] using hzero
    · simp [hne, toNat_packVersion, hversion]

theorem number_honoured_iff (hs : s.Sound configOptions) (key : NumberKey) :
    (((conf.updated s.params).number key).toNat : Int) =
        (lastNumber key s.given).getD (conf.number key).toNat ↔
      (key ≠ .categoryId → key ≠ .networkId → lastNumber key s.given = none →
        conf.number key = 0) := by
  have hnumber := hs.number key
  have hupdated : (conf.updated s.params).number key =
      if key.updates (s.params.number key) then s.params.number key else conf.number key := rfl
  rw [hupdated]
  cases hlast : lastNumber key s.given with
  | none =>
    rw [hlast, Option.getD_none] at hnumber
    have hzero : s.params.number key = 0 := UInt8.toNat_inj.mp (by simpa using hnumber)
    have hconf : ((0 : Int) = (conf.number key).toNat) ↔ conf.number key = 0 := by
      rw [← UInt8.toNat_inj, eq_comm]
      exact Int.natCast_eq_zero
    rw [hzero, Option.getD_none]
    cases key with
    | categoryId | networkId => simp [NumberKey.updates]
    | batteryType | advertisingMode | initialProximity =>
      simpa [NumberKey.updates] using hconf
  | some value =>
    rw [hlast, Option.getD_some] at hnumber
    have hupdates : key.updates (s.params.number key) = true := by
      cases hs.valid _ (number_mem hlast) with
      | number hlow hhigh =>
        cases key <;>
          simp [NumberKey.updates, configOptions, UInt8.lt_iff_toNat_lt,
            UInt8.le_iff_toNat_le] at hlow hhigh ⊢ <;> omega
    simp [hupdates, hnumber]

theorem honoured_iff (hs : s.Sound configOptions) (hconf : conf.Sound) :
    Honoured s.given conf (conf.updated s.params) ↔ Kept s.given conf := by
  constructor
  · intro h
    exact ⟨fun k => (text_honoured_iff hs hconf k).mp (h.text k),
      (version_honoured_iff hs).mp h.version, fun k => (number_honoured_iff hs k).mp (h.number k)⟩
  · intro h
    exact ⟨fun k => (text_honoured_iff hs hconf k).mpr (h.text k),
      (version_honoured_iff hs).mpr h.version,
      fun k => (number_honoured_iff hs k).mpr (h.number k)⟩

end

/-! ## The tracker -/

/-- A command with its arguments, whether its context can be allocated, and what the queue
answers. -/
inductive TrackerCall
  | config (argv : List Arg) (room : Bool) (sent : Int)
  | set (argv : List Arg) (room : Bool) (sent : Int)

/-- The handler of an event on the Sidewalk thread; without a context the settings are printed. -/
def workOff (handler : Params T N V → DultConfig → Checked DultConfig)
    (event : Option (DultEvent T N V)) (conf : DultConfig) : Checked DultConfig :=
  match event with
  | some (some (_, s)) => handler s.params conf
  | _ => pure conf

/-- The arguments are strings, which hold no zero. -/
def Strings (argv : List Arg) : Prop := ∀ arg ∈ argv, (0 : UInt8) ∉ arg

/-- The configuration from the start of the program on. The events are worked off in the order of
the commands, and a command that reads `argv[argc]` ends the run. -/
def tracker (configSize setSize : Nat) : System DultConfig TrackerCall where
  init conf := ∃ bss, conf = resetDultConfig bss
  step conf call conf' := ∃ heap, match call with
    | .config argv room sent => Strings argv ∧
      (cmdDultConfig configSize argv room sent heap).ret ≠ none ∧
      workOff dultEventConfig (cmdDultConfig configSize argv room sent heap).event conf = .ok conf'
    | .set argv room sent => Strings argv ∧
      (cmdDultSet setSize argv room sent heap).ret ≠ none ∧
      workOff (fun params conf => pure (dultEventSet params conf))
        (cmdDultSet setSize argv room sent heap).event conf = .ok conf'

/-- What an event with a context carries. -/
theorem dultCommand_event {opts : Options T N V} {optional size p : Nat} {argv : List Arg}
    {room : Bool} {sent : Int} {heap : Heap} {s : Parsed T N V}
    (h : (dultCommand opts optional size argv room sent heap).event = some (some (p, s))) :
    s = (parseOptions opts argv.tail .init).2 := by
  unfold dultCommand at h
  split at h
  · cases h
  split at h
  · split at h <;> cases h
  split at h
  · cases h
  split at h
  · cases h
  · cases h
  · next hparse =>
    split at h
    · cases h
      rw [hparse]
    · cases h

theorem dultCommand_outside_iff {opts : Options T N V} {optional size : Nat} {argv : List Arg}
    {room : Bool} {sent : Int} {heap : Heap} :
    (dultCommand opts optional size argv room sent heap).ret = none ↔
      room = true ∧ 1 < argv.length ∧ argv.length ≤ 1 + optional ∧
        (parseOptions opts argv.tail .init).1 = .outside := by
  unfold dultCommand
  by_cases hcount : argv.length < 1 ∨ argv.length > 1 + optional
  · rw [if_pos hcount]
    exact iff_of_false nofun fun ⟨_, h, h', _⟩ => by omega
  rw [if_neg hcount]
  by_cases hone : argv.length = 1
  · rw [if_pos hone]
    exact iff_of_false nofun fun ⟨_, h, _⟩ => by omega
  rw [if_neg hone]
  have hmore : 1 < argv.length ∧ argv.length ≤ 1 + optional := by omega
  cases room with
  | false => exact iff_of_false nofun fun ⟨h, _⟩ => nomatch h
  | true =>
    simp only [Heap.malloc_true, hmore, true_and]
    split
    · next hparse => exact iff_of_false nofun (by rw [hparse]; nofun)
    · next hparse => exact iff_of_true rfl (by rw [hparse])
    · next _ houtside hparse =>
      have hend : (parseOptions opts argv.tail .init).1 ≠ .outside := by
        rw [hparse]
        exact houtside
      split <;> exact iff_of_false nofun hend

/-- `argv[argc]` is read where a version is the last option and has two of its three numbers. -/
theorem cmdDultConfig_outside_iff {size : Nat} {argv : List Arg} {room : Bool} {sent : Int}
    {heap : Heap} :
    (cmdDultConfig size argv room sent heap).ret = none ↔
      room = true ∧ 1 < argv.length ∧ argv.length ≤ 21 ∧
        ∃ before a b, argv.tail = before ++ [[0x2D, 0x66], a, b] ∧
          (parseOptions configOptions before .init).1 = .finished := by
  have hversion (arg : Arg) : (∃ k, configOptions.kind arg = some (.version k)) ↔
      arg = [0x2D, 0x66] := by
    constructor
    · rintro ⟨k, hk⟩
      by_contra hne
      change configKind arg = _ at hk
      unfold configKind at hk
      split_ifs at hk <;> cases hk
    · rintro rfl
      exact ⟨(), rfl⟩
  refine dultCommand_outside_iff.trans (and_congr_right fun _ => and_congr_right fun _ =>
    and_congr_right fun _ => parse_outside_iff.trans ?_)
  constructor
  · rintro ⟨before, arg, a, b, k, htail, hkind, hbefore⟩
    obtain rfl := (hversion arg).mp ⟨k, hkind⟩
    exact ⟨before, a, b, htail, hbefore⟩
  · rintro ⟨before, a, b, htail, hbefore⟩
    exact ⟨before, _, a, b, (), htail, rfl, hbefore⟩

theorem cmdDultSet_inside (size : Nat) (argv : List Arg) (room : Bool) (sent : Int) (heap : Heap) :
    (cmdDultSet size argv room sent heap).ret ≠ none := by
  intro h
  obtain ⟨-, -, -, hend⟩ := dultCommand_outside_iff.mp h
  obtain ⟨_, _, _, _, k, -⟩ := parse_outside_iff.mp hend
  exact k.elim

section

variable {conf conf' : DultConfig}

theorem sound_reset (bss : DultConfig) : (resetDultConfig bss).Sound where
  ends k := by cases k <;> rfl
  inside := Nat.zero_le _

theorem DultConfig.Sound.set (h : conf.Sound) (params : DultSetParams) :
    (dultEventSet params conf).Sound := by
  unfold dultEventSet
  split <;> exact ⟨h.ends, h.inside⟩

/-- A copy leaves the last byte of its array. -/
theorem DultConfig.Sound.updated (h : conf.Sound) {s : Parsed TextKey NumberKey Unit}
    (hs : s.Sound configOptions) : (conf.updated s.params).Sound where
  ends k := by
    change (conf.copied s.params k).bytes (k.size - 1) = 0
    unfold DultConfig.copied
    split
    · change (conf.text k).bytes.blit 0 _ (k.size - 1) = 0
      rw [Mem.blit_above (by rw [length_copy, Nat.zero_add]), h.ends]
    · exact h.ends k
  inside := by
    change (if _ then _ else _ : UInt8).toNat ≤ 32
    split
    · next hpos =>
      have hmaximum : (s.params.text .identifier).length ≤ 32 := by
        have htext := hs.text .identifier
        cases hlast : lastText .identifier s.given with
        | none =>
          rw [hlast, Option.getD_none] at htext
          rw [htext]
          exact Nat.zero_le _
        | some value =>
          rw [hlast, Option.getD_some] at htext
          rw [htext]
          cases hs.valid _ (text_mem hlast) with
          | text hmaximum => exact hmaximum
      rw [UInt8.toNat_ofNat']
      omega
    · exact h.inside

theorem parse_sound {argv : List Arg} (hargv : Strings argv) :
    (parseOptions configOptions argv.tail .init).2.Sound configOptions := by
  refine (parses configOptions argv.tail .init).sound .init fun arg harg => ?_
  exact hargv arg (List.mem_of_mem_tail harg)

/-- An event never writes outside an array, and keeps the arrays ended. -/
theorem DultConfig.Sound.workOff (h : conf.Sound) {s : Parsed TextKey NumberKey Unit}
    (hs : s.Sound configOptions) :
    ∃ conf', dultEventConfig s.params conf = .ok conf' ∧ conf'.Sound := by
  cases hreset : s.params.reset with
  | true =>
    refine ⟨resetDultConfig conf, ?_, sound_reset conf⟩
    rw [dultEventConfig, hreset, if_pos rfl]
    rfl
  | false => exact ⟨conf.updated s.params, dultEventConfig_eq hreset, h.updated hs⟩

theorem tracker_sound {configSize setSize : Nat} (h : (tracker configSize setSize).Reachable conf) :
    conf.Sound := by
  refine h.invariant ?_ ?_
  · rintro _ ⟨bss, rfl⟩
    exact sound_reset bss
  · rintro conf call conf' hconf - ⟨heap, hstep⟩
    cases call with
    | config argv room sent =>
      obtain ⟨hargv, -, hwork⟩ := hstep
      unfold Dult.workOff at hwork
      split at hwork
      · next p s hevent =>
        have hs : s.Sound configOptions := dultCommand_event hevent ▸ parse_sound hargv
        obtain ⟨conf'', hok, hsound⟩ := hconf.workOff hs
        rw [hok] at hwork
        cases hwork
        exact hsound
      · cases hwork
        exact hconf
    | set argv room sent =>
      obtain ⟨-, -, hwork⟩ := hstep
      unfold Dult.workOff at hwork
      split at hwork
      · cases hwork
        exact hconf.set _
      · cases hwork
        exact hconf

end

/-- Whatever was set before, a command is worked off without a write outside an array, and when it
leaves the settings as they were given is known. -/
theorem tracker_settings {configSize setSize : Nat} {conf : DultConfig}
    (h : (tracker configSize setSize).Reachable conf) {argv : List Arg} (hargv : Strings argv)
    {room : Bool} {sent : Int} {heap : Heap} {p : Nat} {s : Parsed TextKey NumberKey Unit}
    (hevent : (cmdDultConfig configSize argv room sent heap).event = some (some (p, s))) :
    ∃ conf', dultEventConfig s.params conf = .ok conf' ∧ conf'.Sound ∧
      (s.params.reset = false → (Honoured s.given conf conf' ↔ Kept s.given conf)) := by
  have hs : s.Sound configOptions := dultCommand_event hevent ▸ parse_sound hargv
  have hconf := tracker_sound h
  obtain ⟨conf', hok, hsound⟩ := hconf.workOff hs
  refine ⟨conf', hok, hsound, fun hreset => ?_⟩
  rw [dultEventConfig_eq hreset] at hok
  cases hok
  exact honoured_iff hs hconf

/-- `config -p tag -b 2 -a 1 -im 1`. -/
def tagArgs : List Arg :=
  [[0x63, 0x6F, 0x6E, 0x66, 0x69, 0x67], [0x2D, 0x70], [0x74, 0x61, 0x67], [0x2D, 0x62], [0x32],
    [0x2D, 0x61], [0x31], [0x2D, 0x69, 0x6D], [0x31]]

/-- `config -c 5`. -/
def categoryArgs : List Arg := [[0x63, 0x6F, 0x6E, 0x66, 0x69, 0x67], [0x2D, 0x63], [0x35]]

def zeroConfig : DultConfig := ⟨fun _ => ⟨fun _ => 0⟩, 0, 0, fun _ => 0, 0, false, true⟩

def parsedArgs (argv : List Arg) : Parsed TextKey NumberKey Unit :=
  (parseOptions configOptions argv.tail .init).2

/-- The configuration behind the first command. -/
def taggedConfig : DultConfig := (resetDultConfig zeroConfig).updated (parsedArgs tagArgs).params

theorem tagged_reachable : (tracker 256 8).Reachable taggedConfig := by
  refine .step (a := .config tagArgs true 0) (.init ⟨zeroConfig, rfl⟩) trivial
    ⟨.empty, by unfold Strings; decide, by decide, ?_⟩
  exact dultEventConfig_eq rfl

/-- A command without a battery type sets it to zero. -/
theorem tracker_settings_tagged :
    (∃ conf', dultEventConfig (parsedArgs categoryArgs).params taggedConfig = .ok conf' ∧
      conf'.Sound ∧ ((parsedArgs categoryArgs).params.reset = false →
        (Honoured (parsedArgs categoryArgs).given taggedConfig conf' ↔
          Kept (parsedArgs categoryArgs).given taggedConfig))) ∧
      ¬Kept (parsedArgs categoryArgs).given taggedConfig := by
  have hargs : Strings categoryArgs := by
    unfold Strings
    decide
  have hevent : (cmdDultConfig 256 categoryArgs true 0 .empty).event =
      some (some (0, parsedArgs categoryArgs)) := rfl
  refine ⟨tracker_settings tagged_reachable hargs hevent, fun h => ?_⟩
  have hbattery : taggedConfig.number .batteryType = 0 := h.number .batteryType nofun nofun rfl
  exact absurd hbattery (by decide)

end Sidewalk.App.Dult
