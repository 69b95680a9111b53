import Fibers.Proofs.Alike.Basic

/-!
# Switches of states that differ in code

Where the machine switches, and where a switch lands, it looks at frames but not at the code in
them.  So states that are alike lead to states that are alike.
-/

namespace Fibers

variable {R : List Op -> List Op -> Prop} {l l' : List LogEntry}

/-! ## Contexts -/

theorem replaceStack_alike {contexts contexts' : List (ContextId × List Frame)}
    {stack stack' : List Frame} (hstack : StacksAlike R stack stack')
    (h : ContextsAlike R contexts contexts') (c : ContextId) :
    ContextsAlike R (replaceStack c stack contexts)
      (replaceStack c stack' contexts') := by
  induction h with
  | nil => exact .nil
  | cons hentry hrest ih =>
      cases hentry with
      | mk d hold =>
          simp only [replaceStack]
          split
          · exact .cons (.mk d hstack) hrest
          · exact .cons (.mk d hold) ih

theorem lookup_alike {contexts contexts' : List (ContextId × List Frame)}
    (h : ContextsAlike R contexts contexts') (c : ContextId) :
    Option.Rel (StacksAlike R) (contexts.lookup c) (contexts'.lookup c) := by
  induction h with
  | nil => exact .none
  | cons hentry hrest ih =>
      cases hentry with
      | mk d hstack =>
          simp only [List.lookup_cons]
          split
          · exact .some hstack
          · exact ih

theorem filter_alike {contexts contexts' : List (ContextId × List Frame)}
    (h : ContextsAlike R contexts contexts') (c : ContextId) :
    ContextsAlike R (contexts.filter fun entry => entry.1 ≠ c)
      (contexts'.filter fun entry => entry.1 ≠ c) := by
  induction h with
  | nil => exact .nil
  | cons hentry hrest ih =>
      simp only [List.filter_cons, hentry.fst]
      split
      · exact .cons hentry ih
      · exact ih

namespace State.Near

variable {s s' : State} {w w' : World} {scene scene' : Scene}
  {stack stack' below below' : List Frame}

theorem kind (h : s.Near R l l' s') : s'.kind = s.kind := by
  simp only [State.kind, h.running, h.world.kindOf]

theorem parked (h : s.Near R l l' s') (c : ContextId) :
    Option.Rel (StacksAlike R) (s.parked? c) (s'.parked? c) :=
  lookup_alike h.contexts c

theorem waiting (h : s.Near R l l' s') (c : ContextId) (hstack : StacksAlike R stack stack') :
    Near R l l' { s with contexts := replaceStack c stack s.contexts }
      { s' with contexts := replaceStack c stack' s'.contexts } :=
  ⟨h.running, replaceStack_alike hstack h.contexts c, h.world⟩

/-! ## Going on -/

theorem go (h : s.Near R l l' s') (hworld : w.Alike l l' w') (hstack : StacksAlike R stack stack') :
    Config.Alike R l l' (s.go w stack) (s'.go w' stack') :=
  .active ⟨⟨h.running, h.contexts, hworld⟩, hstack, .run⟩

theorem breach (h : s.Near R l l' s') (v : Violation) :
    Config.Alike R l l' (s.breach v) (s'.breach v) :=
  .halted _ h.world

theorem stuck (h : s.Near R l l' s') : Config.Alike R l l' s.stuck s'.stuck :=
  .halted _ h.world

theorem raise (h : s.Near R l l' s') (hworld : w.Alike l l' w') (cause : Unwind)
    {entries entries' : List Entry} (hentries : EntriesAlike R entries entries')
    (hstack : StacksAlike R stack stack') :
    Config.Alike R l l' (s.raise w cause entries stack) (s'.raise w' cause entries' stack') :=
  h.go hworld (.cons (.discarding _ hentries) hstack)

theorem proceed (h : s.Near R l l' s') (hscene : scene.Alike R l l' scene')
    (hbelow : StacksAlike R below below') :
    Config.Alike R l l' (s.proceed scene below) (s'.proceed scene' below') :=
  h.go hscene.world (.cons (.code hscene.code) hbelow)

theorem store (h : s.Near R l l' s') (hscene : scene.Alike R l l' scene')
    (hbelow : StacksAlike R below below') (pending : List (SlotName × Handle))
    (note : Option Note) :
    Config.Alike R l l' (s.store scene below pending note) (s'.store scene' below' pending note) :=
  h.go hscene.world (.cons (.calling (.store _ _) hscene.code) hbelow)

theorem panic (h : s.Near R l l' s') (hscene : scene.Alike R l l' scene')
    (hbelow : StacksAlike R below below') (payload : Payload) {captured captured' : List Entry}
    (hcaptured : EntriesAlike R captured captured') :
    Config.Alike R l l' (s.panic scene below payload captured)
      (s'.panic scene' below' payload captured') :=
  h.raise hscene.world _ hcaptured (.cons (.code hscene.code) hbelow)

/-! ## Switches -/

theorem transfer (h : s.Near R l l' s') (hworld : w.Alike l l' w')
    (hstack : StacksAlike R stack stack') (target : ContextId) {signal signal' : Signal}
    (hsignal : signal.Alike R signal') :
    Config.Alike R l l' (s.transfer w stack target signal)
      (s'.transfer w' stack' target signal') := by
  have hparked := h.parked target
  have hrunning := h.running
  simp only [State.transfer]
  generalize s.parked? target = there, s'.parked? target = there' at hparked ⊢
  cases hparked with
  | none => exact .halted _ hworld
  | some hthere =>
      cases hthere with
      | nil => exact .halted _ hworld
      | cons htop hbelow =>
          rw [hrunning]
          exact .active ⟨⟨rfl, replaceStack_alike .nil (replaceStack_alike hstack h.contexts _) _,
            hworld⟩, .cons htop hbelow, .landed _ hsignal⟩

theorem depart (h : s.Near R l l' s') (hscene : scene.Alike R l l' scene')
    (hbelow : StacksAlike R below below') (target : ContextId) (switch : SwitchSpec)
    {onTop onTop' : Option Closure} (honTop : Option.Rel (Closure.Alike R) onTop onTop') :
    Config.Alike R l l' (s.depart scene below target switch onTop)
      (s'.depart scene' below' target switch onTop') := by
  have hhosts := hscene.world.hosts
  cases honTop with
  | none =>
      simp only [State.depart, hhosts]
      exact h.transfer (hscene.world.trace _)
        (.cons (.calling (.resume _ _ .none) hscene.code) hbelow) _ (.message _)
  | some hclosure =>
      simp only [State.depart, hhosts]
      exact h.transfer (hscene.world.trace _)
        (.cons (.calling (.resume _ _ (.some hclosure)) hscene.code) hbelow) _ .onTop

theorem probe (h : s.Near R l l' s') (hscene : scene.Alike R l l' scene')
    (hbelow : StacksAlike R below below') (target : ContextId) (query : Query)
    {purpose purpose' : ProbePurpose} (hpurpose : purpose.Alike R purpose') :
    Config.Alike R l l' (s.probe scene below target query purpose)
      (s'.probe scene' below' target query purpose') :=
  h.transfer (hscene.world.trace _) (.cons (.calling (.probe _ _ hpurpose) hscene.code) hbelow) _
    (.message _)

theorem resume (h : s.Near R l l' s') (hscene : scene.Alike R l l' scene')
    (hbelow : StacksAlike R below below') (switch : SwitchSpec) {onTop onTop' : Option Closure}
    (honTop : Option.Rel (Closure.Alike R) onTop onTop') :
    Config.Alike R l l' (s.resume scene below switch onTop)
      (s'.resume scene' below' switch onTop') := by
  have htake := hscene.take switch.slot
  simp only [State.resume]
  generalize scene.take switch.slot = taken, scene'.take switch.slot = taken',
    switch.checked = checked at htake ⊢
  cases htake with
  | mk handle hscene =>
      cases handle <;> cases checked
      · exact h.panic hscene hbelow _ (Closure.leftover_alike honTop)
      · exact h.panic hscene hbelow _ (Closure.leftover_alike honTop)
      · exact h.depart hscene hbelow _ _ honTop
      · exact h.probe hscene hbelow _ _ (.check _ honTop)

theorem ask (h : s.Near R l l' s') (hscene : scene.Alike R l l' scene')
    (hbelow : StacksAlike R below below') (question : Question) (slot : SlotName) :
    Config.Alike R l l' (s.ask scene below question slot)
      (s'.ask scene' below' question slot) := by
  have htake := hscene.take slot
  simp only [State.ask]
  generalize scene.take slot = taken, scene'.take slot = taken' at htake ⊢
  cases htake with
  | mk handle hscene =>
      cases handle with
      | empty => exact h.panic hscene hbelow _ .nil
      | live target => exact h.probe hscene hbelow _ _ (.question _ _)

/-! ## Making fibers -/

theorem failBuild (h : s.Near R l l' s') (hscene : scene.Alike R l l' scene')
    (hbelow : StacksAlike R below below') {body body' : Closure} (hbody : body.Alike R body')
    (cause : BuildError) :
    Config.Alike R l l' (s.failBuild scene below body cause)
      (s'.failBuild scene' below' body' cause) := by
  cases hbody with
  | mk label argument hcaptured hcode =>
      exact h.go hscene.world
        (dropFirst_alike hcaptured (.cons (.calling (.failBuild _) hscene.code) hbelow))

theorem launch (h : s.Near R l l' s') (hscene : scene.Alike R l l' scene')
    (hbelow : StacksAlike R below below') (slot : SlotName) (fiber : ContextId)
    {record record' : Record} (hrecord : record.Alike R record') (usable : Region) :
    Config.Alike R l l' (s.launch scene below slot fiber record usable)
      (s'.launch scene' below' slot fiber record' usable) := by
  cases hscene with
  | mk hworld hcode =>
      cases hworld with
      | on w =>
          cases hrecord with
          | mk lease hbody =>
              have hnear : Near R l l'
                  { s with contexts := (fiber, [.base .unborn]) :: s.contexts }
                  { s' with contexts := (fiber, [.base .unborn]) :: s'.contexts } :=
                ⟨h.running, .cons (.mk _ (.cons (.base .unborn) .nil)) h.contexts, h.world⟩
              have hsettled : World.Alike l l' _ _ :=
                .on (w.settle lease.stack fiber (usable.top - 1))
              exact hnear.transfer (hsettled.report (.traced (.registering lease.stack)))
                (.cons (.calling (.create slot) hcode) hbelow) _ (.start (.some (.mk lease hbody)))

theorem place (h : s.Near R l l' s') (hscene : scene.Alike R l l' scene')
    (hbelow : StacksAlike R below below') (spec : FiberSpec) {body body' : Closure}
    (hbody : body.Alike R body') (fiber : ContextId) (stack : Region) (size : Nat) :
    Config.Alike R l l' (s.place scene below spec body fiber stack size)
      (s'.place scene' below' spec body' fiber stack size) := by
  cases hscene with
  | mk hworld hcode =>
      simp only [State.place, h.kind]
      split
      · exact h.launch (.mk hworld hcode) hbelow _ _ (.mk _ (.some hbody)) _
      · exact h.failBuild (.mk (hworld.returnStack _ _) hcode) hbelow hbody _

theorem create (h : s.Near R l l' s') (hscene : scene.Alike R l l' scene')
    (hbelow : StacksAlike R below below') (spec : FiberSpec) {body body' : Closure}
    (hbody : body.Alike R body') :
    Config.Alike R l l' (s.create scene below spec body) (s'.create scene' below' spec body') := by
  cases hscene with
  | @mk w w' a a' hworld hcode =>
      have hasked := hworld.askForStack spec.name spec.allocator.label? s.kind
      simp only [State.create, h.kind]
      generalize w.askForStack spec.name spec.allocator.label? s.kind = asked,
        w'.askForStack spec.name spec.allocator.label? s.kind = asked' at hasked ⊢
      cases hasked with
      | on v =>
          simp only [World.on]
          cases spec.allocator.supply v.memory v.registry.ranges with
          | error cause => exact h.failBuild (.mk (.on v) hcode) hbelow hbody _
          | ok supplied =>
              have hlent : World.Alike l l' _ _ :=
                .on (v.lendStack supplied.2 spec.allocator.label?)
              exact h.place (.mk hlent hcode) hbelow spec hbody _ _ _

/-! ## Landing -/

theorem deliver (h : s.Near R l l' s') {a a' : Activation} (hcode : a.Alike R a')
    (hbelow : StacksAlike R below below') (handle : Handle) {onTop onTop' : Option Closure}
    (honTop : Option.Rel (Closure.Alike R) onTop onTop') (target : SlotName) :
    Config.Alike R l l' (s.deliver handle onTop target a below)
      (s'.deliver handle onTop' target a' below') := by
  have hscene := (Scene.Alike.mk h.world hcode).note (.resumed handle)
  exact h.go hscene.world (dropFirst_alike (Closure.leftover_alike honTop)
    (.cons (.calling (.store _ _) hscene.code) hbelow))

theorem callBody (h : s.Near R l l' s') (hbelow : StacksAlike R below below')
    {record record' : Record} (hrecord : record.Alike R record') (caller : Handle) :
    Config.Alike R l l' (s.callBody record caller below) (s'.callBody record' caller below') := by
  cases hrecord with
  | mk lease hbody =>
      cases hbody with
      | none => exact h.breach _
      | some hclosure =>
          exact h.go (h.world.trace _)
            (.cons (.code (hclosure.activation caller)) (.cons (.base (.busy lease)) hbelow))

theorem conclude (h : s.Near R l l' s') (hscene : scene.Alike R l l' scene')
    (hbelow : StacksAlike R below below') (fiber : ContextId) (reply : Reply)
    {purpose purpose' : ProbePurpose} (hpurpose : purpose.Alike R purpose') :
    Config.Alike R l l' (s.conclude scene below fiber reply purpose)
      (s'.conclude scene' below' fiber reply purpose') := by
  have hhosts := hscene.world.hosts
  cases hpurpose with
  | question question slot =>
      simp only [State.conclude, hhosts]
      split
      · exact h.go hscene.world (.cons (.calling (.store _ _) hscene.code) hbelow)
      · exact h.breach _
  | check switch honTop =>
      cases reply with
      | stackKind kind => exact h.breach _
      | affinity binding =>
          simp only [State.conclude, hhosts]
          split
          · exact h.depart hscene hbelow _ _ honTop
          · exact h.go (hscene.world.trace _) (dropFirst_alike (Closure.leftover_alike honTop)
              (.cons (.calling (.refuse _ _ _) hscene.code) hbelow))

end State.Near

/-! ## Arrivals -/

namespace State.Alike

variable {s s' : State}

theorem answer (h : s.Alike R l l' s') (prober : ContextId) (binding : Affinity) :
    Config.Alike R l l' (s.answer prober binding) (s'.answer prober binding) := by
  have hparked := h.parked prober
  simp only [State.answer, h.kind]
  generalize s.parked? prober = there, s'.parked? prober = there' at hparked ⊢
  cases hparked with
  | none => exact h.stuck
  | some hstack =>
      cases hstack with
      | nil => exact h.stuck
      | cons hframe hbelow =>
          cases hframe with
          | calling hcall hcode =>
              cases hcall with
              | probe query reply hpurpose =>
                  exact (h.waiting prober (.cons (.calling (.probe query _ hpurpose) hcode)
                    hbelow)).transfer h.world h.stack prober (.message _)
              | _ => exact h.stuck
          | _ => exact h.stuck

theorem receive (h : s.Alike R l l' s') (source : ContextId) (message : Message) :
    Config.Alike R l l' (s.receive source message) (s'.receive source message) := by
  have hstack := h.stack
  have hanswer := h.answer source
  have hkind := h.kind
  simp only [State.receive]
  generalize s.stack = stack, s'.stack = stack' at hstack ⊢
  cases hstack with
  | nil => exact h.stuck
  | cons hframe hbelow =>
      cases hframe with
      | calling hcall hcode =>
          cases hcall with
          | create slot =>
              cases message with
              | handover =>
                  exact h.go ((h.world.trace _).trace _)
                    (.cons (.calling (.store _ _) hcode) hbelow)
              | _ => exact h.breach _
          | probe query reply hpurpose =>
              cases message with
              | handover =>
                  cases reply with
                  | none => exact h.breach _
                  | some reply => exact h.conclude (.mk h.world hcode) hbelow _ _ hpurpose
              | _ => exact h.breach _
          | resume host target honTop =>
              cases message with
              | handover => exact h.deliver hcode hbelow _ honTop _
              | farewell => exact h.deliver hcode hbelow _ honTop _
              | query => exact hanswer _
              | eviction =>
                  simp only [hkind]
                  split
                  · exact h.breach _
                  · exact h.raise (h.world.trace _) _ (Closure.leftover_alike honTop)
                      (.cons (.code hcode) hbelow)
          | _ => exact h.stuck
      | dropping =>
          cases message with
          | farewell => exact h.go h.world hbelow
          | _ => exact h.breach _
      | base hstage =>
          cases hstage with
          | unborn => exact h.breach _
          | exited lease => exact h.breach _
          | idle hrecord =>
              cases message with
              | handover => exact h.callBody hbelow hrecord _
              | farewell => exact h.callBody hbelow hrecord _
              | query => exact hanswer _
              | eviction =>
                  cases hrecord with
                  | mk lease hbody =>
                      exact h.go h.world (dropFirst_alike (Closure.leftover_alike hbody)
                        (.cons (.base (.leaving lease (.unwound source))) hbelow))
          | _ => exact h.stuck
      | _ => exact h.stuck

theorem start (h : s.Alike R l l' s') (maker : ContextId) {record record' : Option Record}
    (hrecord : Option.Rel (Record.Alike R) record record') :
    Config.Alike R l l' (s.start maker record) (s'.start maker record') := by
  have hstack := h.stack
  simp only [State.start]
  generalize s.stack = stack, s'.stack = stack' at hstack ⊢
  cases hstack with
  | nil => exact h.stuck
  | cons hframe hbelow =>
      cases hframe with
      | base hstage =>
          cases hstage with
          | unborn =>
              cases hrecord with
              | none => exact h.breach _
              | some hrecord =>
                  exact h.transfer h.world (.cons (.base (.idle hrecord)) hbelow) _ (.message _)
          | _ => exact h.stuck
      | _ => exact h.stuck

theorem callOnTop (h : s.Alike R l l' s') (source : ContextId) :
    Config.Alike R l l' (s.callOnTop source) (s'.callOnTop source) := by
  have hparked := h.parked source
  simp only [State.callOnTop]
  generalize s.parked? source = there, s'.parked? source = there' at hparked ⊢
  cases hparked with
  | none => exact h.stuck
  | some hstack =>
      cases hstack with
      | nil => exact h.stuck
      | cons hframe hbelow =>
          cases hframe with
          | calling hcall hcode =>
              cases hcall with
              | resume host target honTop =>
                  cases honTop with
                  | none => exact h.breach _
                  | some hclosure =>
                      have hnear := h.waiting source
                        (.cons (.calling (.resume host target .none) hcode) hbelow)
                      exact .active ⟨⟨hnear.running, hnear.contexts, hnear.world⟩,
                        .cons (.code (hclosure.activation _)) (.cons (.onTop source) h.stack), .run⟩
              | _ => exact h.stuck
          | _ => exact h.stuck

theorem release (h : s.Alike R l l' s') (source : ContextId) :
    Config.Alike R l l' (s.release source) (s'.release source) := by
  have hparked := h.parked source
  have hfilter := filter_alike h.contexts source
  have hworld := h.world
  simp only [State.release, h.running]
  generalize s.parked? source = there, s'.parked? source = there', s.world = w,
    s'.world = w' at hparked hworld ⊢
  cases hparked with
  | none => exact h.stuck
  | some hstack =>
      cases hstack with
      | nil => exact h.stuck
      | cons hframe hbelow =>
          cases hframe with
          | base hstage =>
              cases hstage with
              | exited lease =>
                  -- The registry is read again when the return of the stack is reported.
                  refine .active ⟨⟨rfl, hfilter, ?_⟩, h.stack, .landed _ (.message _)⟩
                  cases hworld with
                  | on v =>
                      have herased : World.Alike l l' _ _ :=
                        .on { v.trace (.releasing lease.name) with
                          registry := v.registry.erase lease.stack }
                      cases lease.owner with
                      | none => exact herased
                      | some label => exact herased.returnStack (some label) _
              | _ => exact h.stuck
          | _ => exact h.stuck

theorem land (h : s.Alike R l l' s') (source : ContextId) {signal signal' : Signal}
    (hsignal : signal.Alike R signal') :
    Config.Alike R l l' (s.land source signal) (s'.land source signal') := by
  cases hsignal with
  | message message => exact h.receive source message
  | onTop => exact h.callOnTop source
  | exit => exact h.release source
  | start hrecord => exact h.start source hrecord

end State.Alike

end Fibers
