import Mathlib
import Sidewalk.Lib.System

/-!
# The Sidewalk thread

The event handlers of `sidewalk_events.c` that use the handle of the Sidewalk library, one after
another as `sid_thread_entry` runs them. The handle is tested for null and nothing else, and is
set by `sid_init` alone.
-/

namespace Sidewalk.App

open Sidewalk.Lib

/-! ## Handlers -/

/-- The options of the build. -/
structure Build where
  autoConnReq : Bool
  fileTransferDfu : Bool
  persistentLinkMask : Bool
  defaultLm : UInt32

/-- Calls that are given the handle. -/
inductive SdkFn
  | process
  | putMsg
  | start
  | option
  | bleBcnConnectionRequest
  | setFactoryReset
  | fileTransferInit
  | fileTransferDeinit
  | deinit
  deriving DecidableEq

/-- `sid_init` with the handle it stores, if it succeeds, and the other calls with their handle. -/
inductive SdkCall
  | init (created : Option Nat)
  | use (fn : SdkFn) (handle : Option Nat)
  deriving DecidableEq

structure SidewalkCtx where
  handle : Option Nat
  linkMask : UInt32
  deriving DecidableEq

def sidLinkType1 : UInt32 := 1
def sidLinkType2 : UInt32 := 2
def sidLinkType3 : UInt32 := 4

/-- What the handlers have in common before they use the handle. -/
def SidewalkCtx.ifStarted (sid : SidewalkCtx)
    (f : SidewalkCtx → SidewalkCtx × List SdkCall) : SidewalkCtx × List SdkCall :=
  if sid.handle.isNone then (sid, []) else f sid

def eventProcess (sid : SidewalkCtx) : SidewalkCtx × List SdkCall :=
  sid.ifStarted fun sid => (sid, [.use .process sid.handle])

/-- `sid_init` stores its handle only if it succeeds. -/
def sidInit (created : Option Nat) (sid : SidewalkCtx) : SidewalkCtx :=
  { sid with handle := created.or sid.handle }

def autoConnect (build : Build) (sid : SidewalkCtx) : List SdkCall :=
  if build.autoConnReq ∧ sid.linkMask &&& sidLinkType1 ≠ 0 then
    [.use .option sid.handle, .use .option sid.handle]
  else []

/-- `err` and `stored` are what `settings_utils_link_mask_get` gives. -/
def loadLinkMask (build : Build) (err : Int) (stored : UInt32) (sid : SidewalkCtx) : SidewalkCtx :=
  let mask := if build.persistentLinkMask then if err ≤ 0 then 0 else stored else sid.linkMask
  { sid with linkMask := if mask = 0 then build.defaultLm else mask }

def eventAutostart (build : Build) (mfgCfgIsEmpty : Bool) (err : Int) (stored : UInt32)
    (created : Option Nat) (sid : SidewalkCtx) : SidewalkCtx × List SdkCall :=
  if sid.handle.isSome then (sid, [])
  else if mfgCfgIsEmpty then (sid, [])
  else
    let sid := sidInit created (loadLinkMask build err stored sid)
    if created.isNone then (sid, [.init created])
    else
      (sid, [.init created, .use .start sid.handle] ++ autoConnect build sid ++
        if build.fileTransferDfu then [.use .fileTransferInit sid.handle] else [])

def eventFactoryReset (sid : SidewalkCtx) : SidewalkCtx × List SdkCall :=
  sid.ifStarted fun sid => (sid, [.use .setFactoryReset sid.handle])

def eventSendMsg (hasMsg : Bool) (sid : SidewalkCtx) : SidewalkCtx × List SdkCall :=
  sid.ifStarted fun sid => (sid, if hasMsg then [.use .putMsg sid.handle] else [])

def eventConnect (sid : SidewalkCtx) : SidewalkCtx × List SdkCall :=
  sid.ifStarted fun sid =>
    (sid, if sid.linkMask &&& sidLinkType1 = 0 then []
      else [.use .bleBcnConnectionRequest sid.handle])

def nextLinkMask (linkMask : UInt32) : UInt32 :=
  if linkMask = sidLinkType1 then sidLinkType2
  else if linkMask = sidLinkType2 then sidLinkType1 ||| sidLinkType3
  else sidLinkType1

/-- The calls that end an instance. -/
def endCalls (build : Build) (sid : SidewalkCtx) : List SdkCall :=
  (if build.fileTransferDfu then [.use .fileTransferDeinit sid.handle] else []) ++
    [.use .process sid.handle, .use .deinit sid.handle]

/-- A failure of `sid_init` is reported, and what follows is done all the same. -/
def eventLinkSwitch (build : Build) (created : Option Nat) (sid : SidewalkCtx) :
    SidewalkCtx × List SdkCall :=
  sid.ifStarted fun sid =>
    let sid := { sid with linkMask := nextLinkMask sid.linkMask }
    let sid' := sidInit created sid
    (sid', endCalls build sid ++ [.init created] ++
      (if build.fileTransferDfu then [.use .fileTransferInit sid'.handle] else []) ++
      [.use .start sid'.handle] ++ autoConnect build sid')

/-- The handle stays as it is. -/
def eventExit (build : Build) (sid : SidewalkCtx) : SidewalkCtx × List SdkCall :=
  sid.ifStarted fun sid => (sid, endCalls build sid)

/-! ## The thread -/

/-- An event with the results of the calls its handler makes. -/
inductive AppEvent
  | process
  | autostart (mfgCfgIsEmpty : Bool) (err : Int) (stored : UInt32) (created : Option Nat)
  | factoryReset
  | sendMsg (hasMsg : Bool)
  | connect
  | linkSwitch (created : Option Nat)
  | exit
  deriving DecidableEq

def handle (build : Build) : AppEvent → SidewalkCtx → SidewalkCtx × List SdkCall
  | .process => eventProcess
  | .autostart mfgCfgIsEmpty err stored created =>
    eventAutostart build mfgCfgIsEmpty err stored created
  | .factoryReset => eventFactoryReset
  | .sendMsg hasMsg => eventSendMsg hasMsg
  | .connect => eventConnect
  | .linkSwitch created => eventLinkSwitch build created
  | .exit => eventExit build

/-- What `sid_init` stores while the event is handled. -/
def AppEvent.created : AppEvent → Option Nat
  | .autostart _ _ _ created | .linkSwitch created => created
  | _ => none

inductive Entry
  | handled (event : AppEvent)
  | called (call : SdkCall)
  deriving DecidableEq

/-- The last entry is the first of the history. -/
structure AppRun where
  sid : SidewalkCtx
  history : List Entry

def record (calls : List SdkCall) (history : List Entry) : List Entry :=
  calls.foldl (fun history call => .called call :: history) history

/-- The library never gives out a handle twice. -/
inductive AppStep (build : Build) : AppRun → AppEvent → AppRun → Prop
  | handled {s} (event) :
      (∀ k, event.created = some k → .called (.init (some k)) ∉ s.history) →
      AppStep build s event ⟨(handle build event s.sid).1,
        record (handle build event s.sid).2 (.handled event :: s.history)⟩

def sidewalkThread (build : Build) : System AppRun AppEvent where
  init s := s.sid.handle = none ∧ s.history = []
  step := AppStep build

/-! ## The life of a handle -/

/-- The handle was given out by `sid_init` and not to `sid_deinit`. -/
def Live (history : List Entry) (handle : Option Nat) : Prop :=
  ∃ k, handle = some k ∧ .called (.init (some k)) ∈ history ∧
    .called (.use .deinit (some k)) ∉ history

def AppEvent.isAutostart : AppEvent → Bool
  | .autostart .. => true
  | _ => false

/-- There was an exit, and no autostart after it. -/
def Exited (history : List Entry) : Prop :=
  ∃ since older, (∀ event, .handled event ∈ since → event.isAutostart = false) ∧
    history = since ++ .handled .exit :: older

/-- Every handle that was used was live, and the first autostart after an exit has initialised
the library, where there are manufacturing data. -/
structure Lifetime (history : List Entry) : Prop where
  live : ∀ fn handle before, .called (.use fn handle) :: before <:+ history → Live before handle
  restarted : ∀ err stored created before, Exited before →
    .handled (.autostart false err stored created) :: before <:+ history →
      .called (.init created) :: .handled (.autostart false err stored created) :: before <:+
        history

/-- Nothing is exited while there is a handle, and the library is initialised again when links
are switched. -/
def Restorable (s : AppRun) : AppEvent → Prop
  | .exit => s.sid.handle = none
  | .linkSwitch created => s.sid.handle.isSome = true → created.isSome = true
  | _ => True

/-! ## What a step keeps -/

theorem record_append (calls calls' : List SdkCall) (history : List Entry) :
    record (calls ++ calls') history = record calls' (record calls history) := by
  unfold record
  rw [List.foldl_append]

section

variable {history : List Entry}

theorem exited_called {call : SdkCall} (h : Exited (.called call :: history)) : Exited history := by
  obtain ⟨since, older, hsince, heq⟩ := h
  cases since with
  | nil => cases (List.cons.inj heq).1
  | cons e since =>
    obtain ⟨-, rfl⟩ := List.cons.inj heq
    exact ⟨since, older, fun event hevent => hsince event (List.mem_cons_of_mem _ hevent), rfl⟩

theorem exited_record {calls : List SdkCall} (h : Exited (record calls history)) :
    Exited history := by
  induction calls generalizing history with
  | nil => exact h
  | cons call calls ih => exact exited_called (ih h)

theorem exited_handled {event : AppEvent} (h : Exited (.handled event :: history)) :
    event = .exit ∨ event.isAutostart = false ∧ Exited history := by
  obtain ⟨since, older, hsince, heq⟩ := h
  cases since with
  | nil =>
    cases heq
    exact .inl rfl
  | cons e since =>
    obtain ⟨rfl, rfl⟩ := List.cons.inj heq
    exact .inr ⟨hsince event List.mem_cons_self, since, older,
      fun event' hevent => hsince event' (List.mem_cons_of_mem _ hevent), rfl⟩

theorem lifetime_nil : Lifetime [] where
  live _ _ _ hsuffix := absurd (List.suffix_nil.mp hsuffix) (List.cons_ne_nil _ _)
  restarted _ _ _ _ _ hsuffix := absurd (List.suffix_nil.mp hsuffix) (List.cons_ne_nil _ _)

theorem Lifetime.handled (h : Lifetime history) {event : AppEvent}
    (hidle : ∀ err stored created, event = .autostart false err stored created → ¬Exited history) :
    Lifetime (.handled event :: history) where
  live fn handle before hsuffix := by
    rcases List.suffix_cons_iff.mp hsuffix with heq | hsuffix
    · cases (List.cons.inj heq).1
    · exact h.live fn handle before hsuffix
  restarted err stored created before hexited hsuffix := by
    rcases List.suffix_cons_iff.mp hsuffix with heq | hsuffix
    · cases heq
      exact absurd hexited (hidle err stored created rfl)
    · exact (h.restarted err stored created before hexited hsuffix).trans (List.suffix_cons _ _)

theorem Lifetime.called (h : Lifetime history) {call : SdkCall}
    (hlive : ∀ fn handle, call = .use fn handle → Live history handle) :
    Lifetime (.called call :: history) where
  live fn handle before hsuffix := by
    rcases List.suffix_cons_iff.mp hsuffix with heq | hsuffix
    · cases heq
      exact hlive fn handle rfl
    · exact h.live fn handle before hsuffix
  restarted err stored created before hexited hsuffix := by
    rcases List.suffix_cons_iff.mp hsuffix with heq | hsuffix
    · cases (List.cons.inj heq).1
    · exact (h.restarted err stored created before hexited hsuffix).trans (List.suffix_cons _ _)

/-- The autostart that initialises the library. -/
theorem Lifetime.restart (h : Lifetime history) (mfgCfgIsEmpty : Bool) (err : Int)
    (stored : UInt32) (created : Option Nat) :
    Lifetime (.called (.init created) ::
      .handled (.autostart mfgCfgIsEmpty err stored created) :: history) where
  live fn handle before hsuffix := by
    rcases List.suffix_cons_iff.mp hsuffix with heq | hsuffix
    · cases (List.cons.inj heq).1
    rcases List.suffix_cons_iff.mp hsuffix with heq | hsuffix
    · cases (List.cons.inj heq).1
    · exact h.live fn handle before hsuffix
  restarted err' stored' created' before hexited hsuffix := by
    rcases List.suffix_cons_iff.mp hsuffix with heq | hsuffix
    · cases (List.cons.inj heq).1
    rcases List.suffix_cons_iff.mp hsuffix with heq | hsuffix
    · cases heq
      exact List.suffix_refl _
    · exact ((h.restarted err' stored' created' before hexited hsuffix).trans
        (List.suffix_cons _ _)).trans (List.suffix_cons _ _)

theorem Live.cons {handle : Option Nat} (h : Live history handle) {e : Entry}
    (he : ∀ k, e ≠ .called (.use .deinit (some k))) : Live (e :: history) handle := by
  obtain ⟨k, rfl, hinit, hdeinit⟩ := h
  refine ⟨k, rfl, List.mem_cons_of_mem _ hinit, fun hmem => ?_⟩
  rcases List.mem_cons.mp hmem with heq | hmem
  · exact he k heq.symm
  · exact hdeinit hmem

/-- Calls that use a live handle, and do not end its instance. -/
def UsesOf (handle : Option Nat) (calls : List SdkCall) : Prop :=
  ∀ call ∈ calls, ∃ fn, fn ≠ .deinit ∧ call = .use fn handle

theorem UsesOf.append {handle : Option Nat} {calls calls' : List SdkCall}
    (h : UsesOf handle calls) (h' : UsesOf handle calls') : UsesOf handle (calls ++ calls') :=
  fun call hcall => (List.mem_append.mp hcall).elim (h call) (h' call)

theorem usesOf_one (handle : Option Nat) (fn : SdkFn) (hfn : fn ≠ .deinit) :
    UsesOf handle [.use fn handle] := by
  intro call hcall
  rw [List.mem_singleton] at hcall
  exact ⟨fn, hfn, hcall⟩

theorem usesOf_if (handle : Option Nat) (fn : SdkFn) (hfn : fn ≠ .deinit) (c : Prop)
    [Decidable c] : UsesOf handle (if c then [.use fn handle] else []) := by
  split
  · exact usesOf_one handle fn hfn
  · exact fun _ hcall => absurd hcall List.not_mem_nil

theorem usesOf_autoConnect (build : Build) (sid : SidewalkCtx) :
    UsesOf sid.handle (autoConnect build sid) := by
  unfold autoConnect
  split
  · exact (usesOf_one sid.handle .option nofun).append (usesOf_one sid.handle .option nofun)
  · exact fun _ hcall => absurd hcall List.not_mem_nil

theorem UsesOf.kept {handle : Option Nat} {calls : List SdkCall} (hcalls : UsesOf handle calls)
    (h : Lifetime history) (hlive : Live history handle) :
    Lifetime (record calls history) ∧ Live (record calls history) handle := by
  induction calls generalizing history with
  | nil => exact ⟨h, hlive⟩
  | cons call calls ih =>
    obtain ⟨fn, hfn, rfl⟩ := hcalls call List.mem_cons_self
    refine ih (fun call hcall => hcalls call (List.mem_cons_of_mem _ hcall)) ?_ ?_
    · refine h.called fun fn' handle' heq => ?_
      cases heq
      exact hlive
    · refine hlive.cons fun k heq => hfn ?_
      cases heq
      rfl

/-- A handle that was ended was given out before. -/
theorem Lifetime.created (h : Lifetime history) {k : Nat}
    (hmem : .called (.use .deinit (some k)) ∈ history) : .called (.init (some k)) ∈ history := by
  obtain ⟨later, before, rfl⟩ := List.append_of_mem hmem
  obtain ⟨k', hk', hinit, -⟩ := h.live .deinit (some k) before (List.suffix_append _ _)
  cases hk'
  exact List.mem_append_right _ (List.mem_cons_of_mem _ hinit)

theorem Lifetime.not_ended (h : Lifetime history) {k : Nat}
    (hfresh : .called (.init (some k)) ∉ history) : .called (.use .deinit (some k)) ∉ history :=
  fun hmem => hfresh (h.created hmem)

theorem live_init {k : Nat} (h : .called (.use .deinit (some k)) ∉ history) :
    Live (.called (.init (some k)) :: history) (some k) := by
  refine ⟨k, rfl, List.mem_cons_self, fun hmem => ?_⟩
  rcases List.mem_cons.mp hmem with heq | hmem
  · cases heq
  · exact h hmem

theorem not_mem_record {calls : List SdkCall} {c : SdkCall} (hcalls : c ∉ calls)
    (h : .called c ∉ history) : .called c ∉ record calls history := by
  induction calls generalizing history with
  | nil => exact h
  | cons call calls ih =>
    refine ih (fun hmem => hcalls (List.mem_cons_of_mem _ hmem)) fun hmem => ?_
    rcases List.mem_cons.mp hmem with heq | hmem
    · cases heq
      exact hcalls List.mem_cons_self
    · exact h hmem

/-- No call on a handle gives one out. -/
theorem UsesOf.not_init {handle created : Option Nat} {calls : List SdkCall}
    (hcalls : UsesOf handle calls) (h : .called (.init created) ∉ history) :
    .called (.init created) ∉ record calls history := by
  refine not_mem_record (fun hcall => ?_) h
  obtain ⟨fn, -, heq⟩ := hcalls _ hcall
  cases heq

end

section

variable {build : Build} {s : AppRun}

/-- The handle is live, and there is none after an exit. -/
structure Kept (s : AppRun) : Prop where
  live : ∀ k, s.sid.handle = some k → Live s.history (some k)
  lifetime : Lifetime s.history
  exited : Exited s.history → s.sid.handle = none

/-- The handler of an event that leaves the handle as it is. -/
theorem Kept.same (h : Kept s) {event : AppEvent} (hevent : event.isAutostart = false)
    (hexit : event = .exit → s.sid.handle = none) {sid : SidewalkCtx} {calls : List SdkCall}
    (hsame : sid.handle = s.sid.handle) (hcalls : s.sid.handle = none → calls = [])
    (huses : UsesOf s.sid.handle calls) :
    Kept ⟨sid, record calls (.handled event :: s.history)⟩ := by
  have hhandled : Lifetime (.handled event :: s.history) :=
    h.lifetime.handled fun _ _ _ heq => by
      rw [heq] at hevent
      cases hevent
  have hexited (hex : Exited (record calls (.handled event :: s.history))) :
      sid.handle = none := by
    rw [hsame]
    rcases exited_handled (exited_record hex) with heq | ⟨-, hex⟩
    · exact hexit heq
    · exact h.exited hex
  cases hhandle : s.sid.handle with
  | none =>
    rw [hcalls hhandle]
    refine ⟨fun k hk => ?_, hhandled, fun _ => hsame.trans hhandle⟩
    exact absurd (hhandle.symm.trans (hsame.symm.trans hk)) (Option.some_ne_none k).symm
  | some k =>
    rw [hhandle] at huses
    have hlive : Live (.handled event :: s.history) (some k) := (h.live k hhandle).cons nofun
    obtain ⟨hlifetime, hlive⟩ := huses.kept hhandled hlive
    refine ⟨fun k' hk' => ?_, hlifetime, hexited⟩
    rw [← hk', hsame, hhandle]
    exact hlive

/-- The handlers that test the handle and then use it. -/
theorem Kept.ifStarted (h : Kept s) {event : AppEvent} (hevent : event.isAutostart = false)
    (hexit : event = .exit → s.sid.handle = none)
    {f : SidewalkCtx → SidewalkCtx × List SdkCall} (hsame : (f s.sid).1.handle = s.sid.handle)
    (huses : event ≠ .exit → UsesOf s.sid.handle (f s.sid).2) :
    Kept ⟨(s.sid.ifStarted f).1, record (s.sid.ifStarted f).2 (.handled event :: s.history)⟩ := by
  unfold SidewalkCtx.ifStarted
  by_cases hnone : s.sid.handle.isNone = true
  · rw [if_pos hnone]
    exact h.same hevent hexit rfl (fun _ => rfl) fun _ hcall => absurd hcall List.not_mem_nil
  · rw [if_neg hnone]
    have hsome : s.sid.handle ≠ none := fun hn => hnone (Option.isNone_iff_eq_none.mpr hn)
    exact h.same hevent hexit hsame (fun hn => absurd hn hsome)
      (huses fun heq => hsome (hexit heq))

theorem Kept.autostart (h : Kept s) (mfgCfgIsEmpty : Bool) (err : Int) (stored : UInt32)
    {created : Option Nat} (hfresh : ∀ k, created = some k → .called (.init (some k)) ∉ s.history) :
    Kept ⟨(eventAutostart build mfgCfgIsEmpty err stored created s.sid).1,
      record (eventAutostart build mfgCfgIsEmpty err stored created s.sid).2
        (.handled (.autostart mfgCfgIsEmpty err stored created) :: s.history)⟩ := by
  have hexited (calls : List SdkCall) (hex : Exited (record calls
      (.handled (.autostart mfgCfgIsEmpty err stored created) :: s.history))) : False := by
    rcases exited_handled (exited_record hex) with heq | ⟨hauto, -⟩
    · cases heq
    · cases hauto
  unfold eventAutostart
  by_cases hsome : s.sid.handle.isSome = true
  · rw [if_pos hsome]
    refine ⟨fun k hk => (h.live k hk).cons nofun, h.lifetime.handled fun _ _ _ _ hex => ?_,
      fun hex => (hexited [] hex).elim⟩
    rw [h.exited hex] at hsome
    cases hsome
  rw [if_neg hsome]
  have hnone : s.sid.handle = none := Option.not_isSome_iff_eq_none.mp hsome
  by_cases hmfg : mfgCfgIsEmpty = true
  · rw [if_pos hmfg]
    refine ⟨fun k hk => (h.live k hk).cons nofun, h.lifetime.handled fun _ _ _ heq => ?_,
      fun hex => (hexited [] hex).elim⟩
    cases heq
    cases hmfg
  rw [if_neg hmfg]
  have hrestart := h.lifetime.restart mfgCfgIsEmpty err stored created
  cases created with
  | none =>
    refine ⟨fun k hk => ?_, hrestart, fun hex => (hexited [.init none] hex).elim⟩
    exact absurd (hnone.symm.trans hk) (Option.some_ne_none k).symm
  | some k =>
    have hnot : Entry.called (.use .deinit (some k)) ∉
        .handled (.autostart mfgCfgIsEmpty err stored (some k)) :: s.history := fun hmem => by
      rcases List.mem_cons.mp hmem with heq | hmem
      · cases heq
      · exact h.lifetime.not_ended (hfresh k rfl) hmem
    have huses : UsesOf (some k) ([.use .start (some k)] ++
        autoConnect build (sidInit (some k) (loadLinkMask build err stored s.sid)) ++
          if build.fileTransferDfu then [.use .fileTransferInit (some k)] else []) :=
      ((usesOf_one _ .start nofun).append (usesOf_autoConnect build (sidInit (some k)
        (loadLinkMask build err stored s.sid)))).append (usesOf_if _ .fileTransferInit nofun _)
    obtain ⟨hlifetime, hlive⟩ := huses.kept hrestart (live_init hnot)
    refine ⟨fun k' hk' => ?_, hlifetime, fun hex => (hexited _ hex).elim⟩
    cases hk'
    exact hlive

theorem Kept.linkSwitch (h : Kept s) {created : Option Nat}
    (hcreated : s.sid.handle.isSome = true → created.isSome = true)
    (hfresh : ∀ k, created = some k → .called (.init (some k)) ∉ s.history) :
    Kept ⟨(eventLinkSwitch build created s.sid).1,
      record (eventLinkSwitch build created s.sid).2
        (.handled (.linkSwitch created) :: s.history)⟩ := by
  unfold eventLinkSwitch SidewalkCtx.ifStarted
  cases hhandle : s.sid.handle with
  | none =>
    exact h.same rfl (by nofun) rfl (fun _ => rfl) fun _ hcall => absurd hcall List.not_mem_nil
  | some k =>
    obtain ⟨k', rfl⟩ := Option.isSome_iff_exists.mp (hcreated (hhandle ▸ rfl))
    simp only [Option.isNone_some, Bool.false_eq_true, if_false, hhandle]
    have hhandled : Lifetime (.handled (.linkSwitch (some k')) :: s.history) :=
      h.lifetime.handled nofun
    have hlive : Live (.handled (.linkSwitch (some k')) :: s.history) (some k) :=
      (h.live k hhandle).cons nofun
    have hbefore : UsesOf (some k) ((if build.fileTransferDfu then
        [.use .fileTransferDeinit (some k)] else []) ++ [.use .process (some k)]) :=
      (usesOf_if _ .fileTransferDeinit nofun _).append (usesOf_one _ .process nofun)
    obtain ⟨hended, hlive⟩ := hbefore.kept hhandled hlive
    have hended : Lifetime (.called (.use .deinit (some k)) :: record _ _) :=
      hended.called fun _ _ heq => by
        cases heq
        exact hlive
    have hnew : Entry.called (.init (some k')) ∉ .called (.use .deinit (some k)) :: record
        ((if build.fileTransferDfu then [.use .fileTransferDeinit (some k)] else []) ++
          [.use .process (some k)]) (.handled (.linkSwitch (some k')) :: s.history) := by
      intro hmem
      rcases List.mem_cons.mp hmem with heq | hmem
      · cases heq
      refine hbefore.not_init (fun hmem => ?_) hmem
      rcases List.mem_cons.mp hmem with heq | hmem
      · cases heq
      · exact hfresh k' rfl hmem
    have hcreated : Lifetime (.called (.init (some k')) :: _) := hended.called nofun
    have hafter : UsesOf (some k') ((if build.fileTransferDfu then
        [.use .fileTransferInit (some k')] else []) ++ [.use .start (some k')] ++
          autoConnect build (sidInit (some k') { s.sid with
            linkMask := nextLinkMask s.sid.linkMask })) :=
      ((usesOf_if _ .fileTransferInit nofun _).append (usesOf_one _ .start nofun)).append
        (usesOf_autoConnect build (sidInit (some k') _))
    obtain ⟨hlifetime, hlive⟩ := hafter.kept hcreated (live_init (hended.not_ended hnew))
    simp only [endCalls, record_append, hhandle] at hlifetime hlive ⊢
    refine ⟨fun k'' hk'' => ?_, hlifetime, fun hex => ?_⟩
    · cases hk''
      exact hlive
    · simp only [← record_append] at hex
      rcases exited_handled (exited_record hex) with heq | ⟨-, hex⟩
      · cases heq
      · exact absurd ((h.exited hex).symm.trans hhandle) (Option.some_ne_none k).symm

theorem kept_of_reached (h : (sidewalkThread build).Reached Restorable s) : Kept s := by
  refine h.invariant (fun s hs => ?_) fun s event s' hkept hguard hstep => ?_
  · obtain ⟨hhandle, hhistory⟩ := hs
    refine ⟨fun k hk => ?_, hhistory ▸ lifetime_nil, fun _ => hhandle⟩
    exact absurd (hhandle.symm.trans hk) (Option.some_ne_none k).symm
  · cases hstep with | handled hfresh =>
    cases event with
    | process => exact hkept.ifStarted rfl (by nofun) rfl fun _ => usesOf_one _ .process nofun
    | autostart mfg err stored created => exact hkept.autostart mfg err stored hfresh
    | factoryReset =>
      exact hkept.ifStarted rfl (by nofun) rfl fun _ => usesOf_one _ .setFactoryReset nofun
    | sendMsg hasMsg =>
      exact hkept.ifStarted rfl (by nofun) rfl fun _ => usesOf_if _ .putMsg nofun _
    | connect =>
      refine hkept.ifStarted rfl (by nofun) rfl fun _ => ?_
      simp only
      split
      · exact fun _ hcall => absurd hcall List.not_mem_nil
      · exact usesOf_one _ .bleBcnConnectionRequest nofun
    | linkSwitch created => exact hkept.linkSwitch hguard hfresh
    | exit => exact hkept.ifStarted rfl (fun _ => hguard) rfl fun hne => absurd rfl hne

end

/-- In a run that exits only while there is no handle, and whose link switches initialise the
library again, every handle that is used is live. -/
theorem sidewalk_lifetime {build : Build} {s : AppRun}
    (h : (sidewalkThread build).Reached Restorable s) : Lifetime s.history :=
  (kept_of_reached h).lifetime

/-- A build with all options. -/
def fullBuild : Build := ⟨true, true, true, sidLinkType1⟩

/-- An exit before the start, a start and a link switch. -/
theorem sidewalk_lifetime_switched : ∃ s, (sidewalkThread fullBuild).Reached Restorable s ∧
    s.sid = ⟨some 1, sidLinkType2⟩ ∧ Lifetime s.history := by
  have hinit : (sidewalkThread fullBuild).Reached Restorable ⟨⟨none, 0⟩, []⟩ := .init ⟨rfl, rfl⟩
  have hexit := hinit.step (a := AppEvent.exit) rfl (.handled .exit nofun)
  have hstart := hexit.step (a := AppEvent.autostart false 0 0 (some 0)) trivial
    (.handled _ (by decide))
  have hswitch := hstart.step (a := AppEvent.linkSwitch (some 1)) (fun _ => rfl)
    (.handled _ (by decide))
  exact ⟨_, hswitch, rfl, sidewalk_lifetime hswitch⟩

/-- The event after an exit uses the handle that was ended. -/
theorem sidewalk_exit_stale : ∃ s, (sidewalkThread fullBuild).Reachable s ∧ ¬Lifetime s.history := by
  have hinit : (sidewalkThread fullBuild).Reachable ⟨⟨none, 0⟩, []⟩ := .init ⟨rfl, rfl⟩
  have hstart := hinit.step trivial (.handled (.autostart false 0 0 (some 0)) (by decide))
  have hexit := hstart.step trivial (.handled .exit nofun)
  have hprocess := hexit.step trivial (.handled .process nofun)
  refine ⟨_, hprocess, fun h => ?_⟩
  obtain ⟨k, hk, -, hdeinit⟩ := h.live .process (some 0) _ (List.suffix_refl _)
  cases hk
  exact hdeinit (by decide)

end Sidewalk.App
