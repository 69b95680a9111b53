import Fibers.Proofs.Soundness

/-!
# What a step does to stacks

A step works on the two topmost frames of the running context's stack.  What it makes of them is
told here by what can be seen from outside: the signal that is sent, the stack that its sender is
parked with, and what is left of the work of a function that runs on top of what another context
was parked with.  Such a function leaves by itself, with a result or through an unwind.  Nothing
else takes the frames away that it runs above.
-/

namespace Fibers

/-! ## Functions at work -/

/-- The lowest frame of a function: its code, or the unwind that its code has ended with. -/
def Frame.Performs (f : Closure) : Frame -> Prop
  | code a | calling _ a => a.label = f.label ∧ a.role = .called f.argument
  | discarding _ (some _) => True
  | _ => False

/-- An unwind performs what it does with whatever it has to drop first. -/
theorem performs_discarding {entries entries' : List Entry} {cause : Option Unwind} {f : Closure}
    (h : Frame.Performs f (.discarding entries cause)) :
    Frame.Performs f (.discarding entries' cause) := by
  cases cause with
  | none => exact h
  | some cause => trivial

/-- A function that came from another context is at work above some frames. -/
def Covers (f : Closure) (source : ContextId) (there stack : List Frame) : Prop :=
  exists above frame, stack = above ++ frame :: .onTop source :: there ∧ frame.Performs f

/-- The stage of the fiber that a stack belongs to. -/
def stageOf : List Frame -> Option FiberStage
  | [] => none
  | .base stage :: _ => some stage
  | _ :: below => stageOf below

/-- What running code keeps whatever it does: its label and what it is run as. -/
def Activation.identity (a : Activation) : String × Role := (a.label, a.role)

/-- The code that a frame belongs to. -/
def Frame.identity? : Frame -> Option (String × Role)
  | code a | calling _ a => some a.identity
  | _ => none

/-- The code that is on a stack, what came there last first. -/
def codesOf (stack : List Frame) : List (String × Role) := stack.filterMap Frame.identity?

theorem codesOf_cons (frame : Frame) (below : List Frame) :
    codesOf (frame :: below) = frame.identity?.toList ++ codesOf below := by
  cases hidentity : frame.identity? <;> simp [codesOf, hidentity]

/--
All functions at work on a stack are still at work on another, whose fiber is as far.  No code has
come there.
-/
structure Retains (old new : List Frame) : Prop where
  covers : forall f source there, Covers f source there old -> Covers f source there new
  stage : stageOf new = stageOf old
  codes : codesOf new <:+ codesOf old

namespace Covers

variable {f : Closure} {source : ContextId} {there below : List Frame} {frame frame' : Frame}

theorem start {h : Handle} :
    Covers f source there (.code (f.activation h) :: .onTop source :: there) :=
  ⟨[], _, rfl, rfl, rfl⟩

theorem push (h : Covers f source there below) (frame : Frame) :
    Covers f source there (frame :: below) := by
  rcases h with ⟨above, lowest, rfl, hperforms⟩
  exact ⟨frame :: above, lowest, rfl, hperforms⟩

theorem pop (h : Covers f source there (frame :: below)) (hnot : ¬ frame.Performs f) :
    Covers f source there below := by
  rcases h with ⟨above, lowest, heq, hperforms⟩
  cases above with
  | nil =>
      cases heq
      exact absurd hperforms hnot
  | cons top above =>
      cases heq
      exact ⟨above, lowest, rfl, hperforms⟩

theorem replace (h : Covers f source there (frame :: below))
    (hsame : frame.Performs f -> frame'.Performs f) : Covers f source there (frame' :: below) := by
  rcases h with ⟨above, lowest, heq, hperforms⟩
  cases above with
  | nil =>
      cases heq
      exact ⟨[], frame', rfl, hsame hperforms⟩
  | cons top above =>
      cases heq
      exact ⟨frame' :: above, lowest, rfl, hperforms⟩

/-- What lies directly above is the function itself. -/
theorem top (h : Covers f source there (frame :: .onTop source :: there)) : frame.Performs f := by
  rcases h with ⟨above, lowest, heq, hperforms⟩
  have hsame : [frame] ++ .onTop source :: there =
      (above ++ [lowest]) ++ .onTop source :: there := by
    simpa using heq
  have hfirst := List.append_cancel_right hsame
  cases above with
  | nil =>
      cases hfirst
      exact hperforms
  | cons first above => cases above <;> cases hfirst

/-- Where a function does not lie directly above what it covers, there is more of it below. -/
theorem under (h : Covers f source there (frame :: below))
    (hnot : below ≠ .onTop source :: there) : Covers f source there below := by
  rcases h with ⟨above, lowest, heq, hperforms⟩
  cases above with
  | nil =>
      cases heq
      exact absurd rfl hnot
  | cons top above =>
      cases heq
      exact ⟨above, lowest, rfl, hperforms⟩

end Covers

namespace Retains

variable {old new below : List Frame} {frame frame' : Frame}

theorem refl (stack : List Frame) : Retains stack stack := ⟨fun _ _ _ h => h, rfl, List.suffix_rfl⟩

theorem push (h : Retains old new) (hstage : stageOf (frame :: new) = stageOf new)
    (hcode : frame.identity? = none) : Retains old (frame :: new) where
  covers f source there hcovers := (h.covers f source there hcovers).push frame
  stage := hstage.trans h.stage
  codes := by
    rw [codesOf_cons, hcode]
    exact h.codes

theorem dropFirst (h : Retains old new) (entries : List Entry) :
    Retains old (Fibers.dropFirst entries new) := by
  cases entries with
  | nil => exact h
  | cons e rest => exact h.push rfl rfl

theorem pop (hnot : forall f, ¬ frame.Performs f)
    (hstage : stageOf (frame :: below) = stageOf below) : Retains (frame :: below) below where
  covers f _ _ hcovers := hcovers.pop (hnot f)
  stage := hstage.symm
  codes := by
    rw [codesOf_cons]
    exact List.suffix_append _ _

theorem replace (hsame : forall f, frame.Performs f -> frame'.Performs f)
    (hstage : stageOf (frame' :: below) = stageOf (frame :: below))
    (hcode : frame'.identity?.toList <:+ frame.identity?.toList) :
    Retains (frame :: below) (frame' :: below) where
  covers f _ _ hcovers := hcovers.replace (hsame f)
  stage := hstage
  codes := by
    rcases hcode with ⟨ended, hcode⟩
    rw [codesOf_cons, codesOf_cons, <- hcode, List.append_assoc]
    exact List.suffix_append _ _

/-- A frame that ends in favour of one that belongs to code. -/
theorem under (hnot : forall source there, below ≠ .onTop source :: there)
    (hstage : stageOf (frame :: below) = stageOf below) : Retains (frame :: below) below where
  covers _ source there hcovers := hcovers.under (hnot source there)
  stage := hstage.symm
  codes := by
    rw [codesOf_cons]
    exact List.suffix_append _ _

theorem trans {newer : List Frame} (h : Retains old new) (h' : Retains new newer) :
    Retains old newer where
  covers f source there hcovers := h'.covers f source there (h.covers f source there hcovers)
  stage := h'.stage.trans h.stage
  codes := h'.codes.trans h.codes

end Retains

/-! ## Code that stays the same code -/

namespace Activation

variable {a : Activation}

@[simp] theorem identity_take (name : SlotName) : (a.take name).2.identity = a.identity := by
  cases hx : exchangeBlock name .empty a.blocks <;> simp [take, hx, identity]

@[simp] theorem identity_put (name : SlotName) (h : Handle) :
    (a.put name h).2.identity = a.identity := by
  cases hx : exchangeBlock name h a.blocks with
  | some found => simp [put, hx, identity]
  | none =>
      cases hd : declareEntry (.slot name h) a.blocks <;> simp [put, hx, hd, identity]

end Activation

namespace Scene

variable {s : Scene}

@[simp] theorem identity_take (slot : SlotName) :
    (s.take slot).2.code.identity = s.code.identity := by
  cases slot <;> simp [take]

@[simp] theorem identity_put (slot : SlotName) (h : Handle) :
    (s.put slot h).2.code.identity = s.code.identity := by
  cases slot <;> simp [put]

@[simp] theorem identity_look (slot : SlotName) :
    (s.look slot).2.code.identity = s.code.identity := by
  simp [look]

@[simp] theorem identity_takeAll (slots : List SlotName) :
    (s.takeAll slots).2.code.identity = s.code.identity := by
  induction slots generalizing s with
  | nil => rfl
  | cons slot rest ih => simp [takeAll, ih]

@[simp] theorem identity_capture (label : String) (argument : SlotName) (captures : List String)
    (moves : List SlotName) (ops : List Op) :
    (s.capture label argument captures moves ops).2.code.identity = s.code.identity := by
  simp [capture]

@[simp] theorem identity_prepend (ops : List Op) :
    (s.prepend ops).code.identity = s.code.identity := by
  unfold prepend
  split <;> rfl

@[simp] theorem identity_defaultResult : s.defaultResult.2.code.identity = s.code.identity := by
  unfold defaultResult
  split <;> simp

end Scene

/-! ## Steps -/

/-- The handle that a message gives to a context that waits to be resumed. -/
def Message.handle? (source : ContextId) : Message -> Option Handle
  | handover => some (.live source)
  | farewell => some .empty
  | eviction | query => none

/-- The function that is to be sent along with the switch that a probe is made for. -/
def ProbePurpose.function? : ProbePurpose -> Option Closure
  | question _ _ => none
  | check _ onTop => onTop

namespace State

variable {s : State}

/-- Code of the given identity can lie above some frames without a loss of what is at work. -/
def Upon (s : State) (identity : String × Role) (below : List Frame) : Prop :=
  forall a : Activation, a.identity = identity ->
    Retains s.stack (.code a :: below) ∧ forall call, Retains s.stack (.calling call a :: below)

section Upon

variable {identity : String × Role} {below : List Frame} {a : Activation} {call : Call}

theorem Upon.code (h : s.Upon identity below) (ha : a.identity = identity) :
    Retains s.stack (.code a :: below) := (h a ha).1

theorem Upon.calling (h : s.Upon identity below) (ha : a.identity = identity) :
    Retains s.stack (.calling call a :: below) := (h a ha).2 call

end Upon

/-- The running context has a function to send along: a new one, or one that a probe was made for. -/
inductive Offers (s : State) (f : Closure) : Prop where
  | made {switch : SwitchSpec} {captures : List String} {moves : List SlotName} {onTop : List Op} :
      s.operation? = some (.resumeWith switch captures moves onTop) -> Offers s f
  | kept {source : ContextId} {query : Query} {reply : Reply} {switch : SwitchSpec}
      {a : Activation} {below : List Frame} :
      s.control = .landed source (.message .handover) ->
        s.stack = .calling (.probe query (some reply) (.check switch (some f))) a :: below ->
        Offers s f

/-- What a step does, as far as stacks and signals go. -/
inductive Shifts (s : State) : Config -> Prop where
  | go {w : World} {stack : List Frame} : Retains s.stack stack -> Shifts s (s.go w stack)
  /-- Another context is resumed, and the call waits. -/
  | resume {w : World} {host : Host} {target : SlotName} {a : Activation} {below : List Frame}
      {next : ContextId} :
      Retains s.stack (.calling (.resume host none target) a :: below) ->
        Shifts s (s.transfer w (.calling (.resume host none target) a :: below) next
          (.message .handover))
  /-- A function is sent along, which the call keeps until it runs. -/
  | resumeWith {w : World} {host : Host} {f : Closure} {target : SlotName} {a : Activation}
      {below : List Frame} {next : ContextId} :
      Retains s.stack (.calling (.resume host (some f) target) a :: below) -> s.Offers f ->
        Shifts s (s.transfer w (.calling (.resume host (some f) target) a :: below) next .onTop)
  | probe {w : World} {query : Query} {purpose : ProbePurpose} {a : Activation}
      {below : List Frame} {next : ContextId} :
      Retains s.stack (.calling (.probe query none purpose) a :: below) ->
        (forall f, purpose.function? = some f -> s.Offers f) ->
        Shifts s (s.transfer w (.calling (.probe query none purpose) a :: below) next
          (.message .query))
  /-- A fiber is made, on a stack that goes back to the allocator that it comes from. -/
  | launch {spec : FiberSpec} {captures : List String} {moves : List SlotName} {body : List Op}
      {w : World} {slot : SlotName} {a : Activation} {below : List Frame} {fiber : ContextId}
      {record : Record} :
      s.operation? = some (.create spec captures moves body) ->
        record.lease.owner = spec.allocator.label? ->
        Retains s.stack (.calling (.create slot) a :: below) ->
        Shifts s ({ s with contexts := (fiber, [.base .unborn]) :: s.contexts }.transfer w
          (.calling (.create slot) a :: below) fiber (.start (some record)))
  | abandon {w : World} {below : List Frame} {fiber : ContextId} :
      Retains s.stack (.dropping :: below) ->
        Shifts s (s.transfer w (.dropping :: below) fiber (.message .eviction))
  | exit {w : World} {lease : Lease} {ending : Ending} {below : List Frame} :
      s.control = .run -> s.stack = .base (.leaving lease ending) :: below ->
        Shifts s (s.transfer w (.base (.exited lease) :: below) ending.next .exit)
  /-- A function on top has returned a handle. -/
  | give {a : Activation} {source next : ContextId} {below : List Frame} :
      s.control = .run -> s.stack = .code a :: .onTop source :: below -> a.blocks = [] ->
        a.flow.result = .live next ->
        Shifts s (.active { s with stack := below, control := .landed next (.message .handover) })
  | giveNothing {a : Activation} {source : ContextId} {below : List Frame} :
      s.control = .run -> s.stack = .code a :: .onTop source :: below -> a.blocks = [] ->
        a.flow.result = .empty ->
        Shifts s (.active { s with stack := below, control := .landed source (.message .farewell) })
  /-- A forced unwind leaves a function on top, and goes on in what is below. -/
  | redeliver {source requester : ContextId} {below : List Frame} :
      s.control = .run ->
        s.stack = .discarding [] (some (.forced requester)) :: .onTop source :: below ->
        Shifts s
          (.active { s with stack := below, control := .landed requester (.message .eviction) })
  | answer {prober : ContextId} {binding : Affinity} :
      s.control = .landed prober (.message .query) -> Shifts s (s.answer prober binding)
  | call {source : ContextId} : s.control = .landed source .onTop -> Shifts s (s.callOnTop source)
  | release {source : ContextId} :
      s.control = .landed source .exit -> Shifts s (s.release source)
  | start {maker : ContextId} {record : Record} {below : List Frame} :
      s.control = .landed maker (.start (some record)) -> s.stack = .base .unborn :: below ->
        Shifts s (s.transfer s.world (.base (.idle record) :: below) maker (.message .handover))
  /-- A guard is dropped, and what it does comes on top of the rest. -/
  | cleanUp {w : World} {label : String} {onDrop : List Op} {rest : List Entry}
      {cause : Option Unwind} {below : List Frame} :
      s.control = .run -> s.stack = .discarding (.guard label onDrop :: rest) cause :: below ->
        Shifts s (s.go w
          (.code (.ofCode .cleanup ("~" ++ label) onDrop) :: .discarding rest cause :: below))
  /-- The body of a fiber is called. -/
  | dispatch {w : World} {source : ContextId} {message : Message} {record : Record} {body : Closure}
      {caller : Handle} {below : List Frame} :
      s.control = .landed source (.message message) -> message.handle? source = some caller ->
        s.stack = .base (.idle record) :: below -> record.body = some body ->
        Shifts s (s.go w (.code (body.activation caller) :: .base (.busy record.lease) :: below))
  /-- The body of a fiber has returned a handle. -/
  | finish {a : Activation} {lease : Lease} {next : ContextId} {below : List Frame} :
      s.control = .run -> s.stack = .code a :: .base (.busy lease) :: below -> a.blocks = [] ->
        a.flow.result = .live next ->
        Shifts s (s.go s.world (.base (.leaving lease (.returned next)) :: below))
  /-- A forced unwind leaves the body of a fiber. -/
  | unwound {requester : ContextId} {lease : Lease} {below : List Frame} :
      s.control = .run ->
        s.stack = .discarding [] (some (.forced requester)) :: .base (.busy lease) :: below ->
        Shifts s (s.go s.world (.base (.leaving lease (.unwound requester)) :: below))
  /-- A fiber is unwound whose body was not called. -/
  | evict {requester : ContextId} {record : Record} {below : List Frame} :
      s.control = .landed requester (.message .eviction) ->
        s.stack = .base (.idle record) :: below ->
        Shifts s (s.go s.world (dropFirst (Closure.leftover record.body)
          (.base (.leaving record.lease (.unwound requester)) :: below)))
  | halt {outcome : Outcome} {w : World} : Shifts s (.halted outcome w)

/-! ### Code -/

section Code

variable {scene : Scene} {below : List Frame} (hupon : s.Upon scene.code.identity below)

include hupon

theorem Upon.store (pending : List (SlotName × Handle)) (n : Option Note) :
    s.Shifts (s.store scene below pending n) :=
  .go (hupon.calling rfl)

theorem Upon.proceed : s.Shifts (s.proceed scene below) := .go (hupon.code rfl)

theorem Upon.drop (w : World) (entries : List Entry) :
    s.Shifts (s.go w (Fibers.dropFirst entries (.code scene.code :: below))) :=
  .go (.dropFirst (hupon.code rfl) entries)

theorem Upon.panic (payload : Payload) (captured : List Entry) :
    s.Shifts (s.panic scene below payload captured) :=
  .go (.push (hupon.code rfl) rfl rfl)

theorem Upon.failBuild (body : Closure) (cause : BuildError) :
    s.Shifts (s.failBuild scene below body cause) :=
  .go (.dropFirst (hupon.calling rfl) _)

theorem Upon.depart (target : ContextId) (switch : SwitchSpec) {onTop : Option Closure}
    (hoffers : forall f, onTop = some f -> s.Offers f) :
    s.Shifts (s.depart scene below target switch onTop) := by
  cases onTop with
  | none => exact .resume (hupon.calling rfl)
  | some f => exact .resumeWith (hupon.calling rfl) (hoffers f rfl)

theorem Upon.probe (target : ContextId) (query : Query) {purpose : ProbePurpose}
    (hoffers : forall f, purpose.function? = some f -> s.Offers f) :
    s.Shifts (s.probe scene below target query purpose) :=
  .probe (hupon.calling rfl) hoffers

theorem Upon.take (slot : SlotName) : s.Upon (scene.take slot).2.code.identity below := by
  rw [Scene.identity_take]
  exact hupon

theorem Upon.look (slot : SlotName) : s.Upon (scene.look slot).2.code.identity below := by
  rw [Scene.identity_look]
  exact hupon

theorem Upon.prepend (ops : List Op) : s.Upon (scene.prepend ops).code.identity below := by
  rw [Scene.identity_prepend]
  exact hupon

theorem Upon.resume (switch : SwitchSpec) {onTop : Option Closure}
    (hoffers : forall f, onTop = some f -> s.Offers f) :
    s.Shifts (s.resume scene below switch onTop) := by
  have htaken := hupon.take switch.slot
  unfold State.resume
  generalize scene.take switch.slot = taken at htaken
  rcases taken with ⟨h, rest⟩
  cases h with
  | empty =>
      cases switch.checked with
      | true => exact htaken.panic _ _
      | false => exact htaken.panic _ _
  | live target =>
      cases switch.checked with
      | true => exact htaken.probe _ _ hoffers
      | false => exact htaken.depart _ _ hoffers

theorem Upon.ask (question : Question) (slot : SlotName) :
    s.Shifts (s.ask scene below question slot) := by
  have htaken := hupon.take slot
  unfold State.ask
  generalize scene.take slot = taken at htaken
  rcases taken with ⟨h, rest⟩
  cases h with
  | empty => exact htaken.panic _ _
  | live target => exact htaken.probe _ _ nofun

theorem Upon.create {spec : FiberSpec} {captures : List String} {moves : List SlotName}
    {ops : List Op} (hop : s.operation? = some (.create spec captures moves ops)) (body : Closure) :
    s.Shifts (s.create scene below spec body) := by
  unfold State.create
  dsimp only
  split
  · apply Upon.failBuild
    exact hupon
  · unfold State.place
    split
    · exact .launch hop rfl (hupon.calling rfl)
    · apply Upon.failBuild
      exact hupon

theorem Upon.execute {op : Op} (hop : s.operation? = some op) :
    s.Shifts (s.execute scene below op) := by
  cases op with
  | create spec captures moves body =>
      apply Upon.create _ hop
      simpa using hupon
  | resume switch => exact hupon.resume switch nofun
  | resumeWith switch captures moves onTop =>
      refine Upon.resume ?_ switch fun _ _ => .made hop
      simpa using hupon
  | ask question slot => exact hupon.ask question slot
  | drop slot => exact (hupon.take slot).drop _ _
  | move slot target => exact (hupon.take slot).store _ _
  | isEmpty slot | display slot | debug slot =>
      apply Upon.proceed
      exact hupon.look slot
  | compare a b =>
      simp only [State.execute]
      split
      · exact (hupon.take a).store _ _
      · exact ((hupon.take a).take b).store _ _
  | collect slots =>
      apply Upon.store
      simpa using hupon
  | giveBack slot =>
      apply Upon.proceed
      exact hupon.take slot
  | ifEmpty slot yes no =>
      apply Upon.proceed
      exact (hupon.look slot).prepend _
  | ifCell cell atLeast yes no => exact (hupon.prepend _).proceed
  | panic payload => exact hupon.panic payload []
  | guard label onDrop | scope ops | rounds count ops | whileLive slot limit ops | leaveLoop
  | attempt swallow ops | say message | whereAmI | setCell cell source | addCell cell source
  | printCell cell | compareHosts a b | checkAffinity binding host | currentHost
  | defaultAffinity | describeStacks settings => exact Upon.proceed hupon

end Code

/-- Code performs what it has performed before. -/
theorem performs_of_identity {a b : Activation} (hidentity : b.identity = a.identity) (f : Closure)
    (hperforms : a.label = f.label ∧ a.role = .called f.argument) :
    b.label = f.label ∧ b.role = .called f.argument := by
  simp only [Activation.identity, Prod.mk.injEq] at hidentity
  rw [hidentity.1, hidentity.2]
  exact hperforms

theorem suffix_of_identity {a b : Activation} (hidentity : b.identity = a.identity) :
    (some b.identity).toList <:+ (some a.identity).toList :=
  hidentity ▸ List.suffix_rfl

theorem upon_code {a : Activation} {below : List Frame} (hstack : s.stack = .code a :: below) :
    s.Upon a.identity below := by
  intro b hb
  rw [hstack]
  exact ⟨.replace (performs_of_identity hb) rfl (suffix_of_identity hb),
    fun call => .replace (performs_of_identity hb) rfl (suffix_of_identity hb)⟩

theorem upon_calling {call : Call} {a : Activation} {below : List Frame}
    (hstack : s.stack = .calling call a :: below) : s.Upon a.identity below := by
  intro b hb
  rw [hstack]
  exact ⟨.replace (performs_of_identity hb) rfl (suffix_of_identity hb),
    fun other => .replace (performs_of_identity hb) rfl (suffix_of_identity hb)⟩

/-! ### Running frames -/

section Run

variable (hcontrol : s.control = .run)

include hcontrol

theorem shifts_give {a : Activation} {below : List Frame} (hstack : s.stack = .code a :: below)
    (hblocks : a.blocks = []) : s.Shifts (s.give a.flow.result below) := by
  unfold give
  split
  · rename_i source below
    split
    · rename_i next hresult
      exact .give hcontrol hstack hblocks hresult
    · rename_i hresult
      exact .giveNothing hcontrol hstack hblocks hresult
  · rename_i lease below
    split
    · rename_i next hresult
      exact .finish hcontrol hstack hblocks hresult
    · exact .halt
  · rename_i entries cause below
    apply Shifts.go
    rw [hstack]
    refine (Retains.under (fun _ _ heq => by cases heq) rfl).trans ?_
    exact .replace (fun _ => performs_discarding) rfl List.suffix_rfl
  · rename_i below
    apply Shifts.go
    rw [hstack]
    apply Retains.dropFirst
    refine (Retains.under (fun _ _ heq => by cases heq) rfl).trans ?_
    exact .replace (fun _ h => h) rfl List.suffix_rfl
  · exact .halt

omit hcontrol in
theorem shifts_endBlock {a : Activation} {below : List Frame} (hstack : s.stack = .code a :: below)
    (b : Block) (outer : List Block) : s.Shifts (s.endBlock a b outer below) := by
  have hupon := upon_code hstack
  have haround : forall a' : Activation, a'.identity = a.identity ->
      s.Shifts (s.go s.world (.code a' :: below)) := fun a' ha' => .go (hupon.code ha')
  unfold endBlock
  split
  · split
    · exact haround _ rfl
    · rename_i slot left code hkind
      have hlooked : s.Upon
          ((Scene.mk s.world { a with blocks := outer }).look slot).2.code.identity below := by
        rw [Scene.identity_look]
        exact hupon
      dsimp only
      split
      · exact hlooked.proceed
      · apply Upon.proceed
        exact hlooked
    · exact haround _ rfl
  · split
    · exact haround _ rfl
    · exact haround _ rfl
  · exact haround _ rfl

theorem shifts_runCode {a : Activation} {below : List Frame}
    (hstack : s.stack = .code a :: below) : s.Shifts (s.runCode a below) := by
  have hupon := upon_code hstack
  unfold runCode
  split
  · rename_i hblocks
    exact shifts_give hcontrol hstack hblocks
  · rename_i b outer hblocks
    have hdefault : s.Upon (Scene.mk s.world a).defaultResult.2.code.identity below := by
      rw [Scene.identity_defaultResult]
      exact hupon
    generalize (Scene.mk s.world a).defaultResult = taken at hdefault
    split
    · rename_i op rest hflow hcode
      apply Upon.execute
      · exact hupon
      · simp only [operation?, hcontrol, hstack, hflow, hblocks, hcode, List.head?_cons]
    · apply Upon.proceed
      exact hdefault
    · apply Upon.proceed
      exact hdefault
    · split
      · exact .go (.push (hupon.code rfl) rfl rfl)
      · exact shifts_endBlock hstack b _
      · exact .go (.push (hupon.code rfl) rfl rfl)

omit hcontrol in
theorem shifts_runCall {call : Call} {a : Activation} {below : List Frame}
    (hstack : s.stack = .calling call a :: below) : s.Shifts (s.runCall call a below) := by
  have hupon := upon_calling hstack
  unfold runCall
  split
  · exact .go (hupon.code rfl)
  · rename_i slot h pending note
    have hput : s.Upon ((Scene.mk s.world a).put slot h).2.code.identity below := by
      rw [Scene.identity_put]
      exact hupon
    generalize (Scene.mk s.world a).put slot h = taken at hput
    exact .go (.dropFirst (hput.calling rfl) _)
  · exact .go (hupon.code rfl)
  · dsimp only
    split
    · apply Upon.store
      exact hupon
    · apply Upon.drop
      exact hupon
  · exact .halt
  · exact .halt
  · exact .halt

/-! ### Unwinding -/

omit hcontrol in
/-- What an unwind has left is not what it goes on in. -/
theorem Upon.unwind {cause : Unwind} {a : Activation} {below : List Frame}
    (hstack : s.stack = .discarding [] (some cause) :: .code a :: below) :
    s.Upon a.identity below := by
  intro b hb
  rw [hstack]
  have hunder : Retains (.discarding [] (some cause) :: .code a :: below) (.code a :: below) :=
    .under (fun _ _ heq => by cases heq) rfl
  exact ⟨hunder.trans (.replace (performs_of_identity hb) rfl (suffix_of_identity hb)),
    fun call => hunder.trans (.replace (performs_of_identity hb) rfl (suffix_of_identity hb))⟩

omit hcontrol in
theorem shifts_unwindCode {cause : Unwind} {a : Activation} {below : List Frame}
    (hstack : s.stack = .discarding [] (some cause) :: .code a :: below) :
    s.Shifts (s.unwindCode cause a below) := by
  have hupon := Upon.unwind hstack
  unfold unwindCode
  split
  · exact .go (.push (hupon.code rfl) rfl rfl)
  · apply Shifts.go
    rw [hstack]
    refine (Retains.under (fun _ _ heq => by cases heq) rfl).trans ?_
    exact .replace (fun _ _ => trivial) rfl (List.nil_suffix)
  · split
    · exact .go (.push (hupon.code rfl) rfl rfl)
    · split
      · exact .go (hupon.code rfl)
      · exact .go (hupon.code rfl)
      · exact .go (.push (hupon.code rfl) rfl rfl)
      · exact .go (.push (hupon.code rfl) rfl rfl)

theorem shifts_unwindInto {cause : Unwind} {below : List Frame}
    (hstack : s.stack = .discarding [] (some cause) :: below) :
    s.Shifts (s.unwindInto cause below) := by
  have hcall : forall (w : World) (entries : List Entry) (call : Call) (a : Activation)
      (rest : List Frame), below = .calling call a :: rest ->
        s.Shifts (s.raise w cause entries (.code a :: rest)) := by
    intro w entries call a rest hbelow
    apply Shifts.go
    rw [hstack, hbelow]
    refine (Retains.under (fun _ _ heq => by cases heq) rfl).trans ?_
    exact .push (.replace (fun _ h => h) rfl List.suffix_rfl) rfl rfl
  unfold unwindInto
  split
  · exact shifts_unwindCode hstack
  · exact hcall _ _ _ _ _ rfl
  · exact hcall _ _ _ _ _ rfl
  · exact hcall _ _ _ _ _ rfl
  · apply Shifts.go
    rw [hstack]
    refine (Retains.under (fun _ _ heq => by cases heq) rfl).trans ?_
    exact .replace (fun _ _ => trivial) rfl List.suffix_rfl
  · exact .halt
  · split
    · exact .halt
    · exact .redeliver hcontrol hstack
  · split
    · exact .halt
    · exact .unwound hcontrol hstack
  · exact .halt
  · split
    · apply Shifts.go
      rw [hstack]
      refine (Retains.under (fun _ _ heq => by cases heq) rfl).trans ?_
      exact .replace (fun _ h => h) rfl List.suffix_rfl
    · exact .halt
  · exact .halt

theorem shifts_runDiscarding {entries : List Entry} {cause : Option Unwind} {below : List Frame}
    (hstack : s.stack = .discarding entries cause :: below) :
    s.Shifts (s.runDiscarding entries cause below) := by
  have hrest : forall rest : List Entry, Retains s.stack (.discarding rest cause :: below) := by
    intro rest
    rw [hstack]
    exact .replace (fun _ => performs_discarding) rfl List.suffix_rfl
  unfold runDiscarding
  split
  · split
    · apply Shifts.go
      rw [hstack]
      exact .pop (fun _ h => h) rfl
    · exact shifts_unwindInto hcontrol hstack
  · exact .go (hrest _)
  · exact .abandon ((hrest _).push rfl rfl)
  · dsimp only
    split
    · exact .go (hrest _)
    · exact .cleanUp hcontrol hstack

/-! ### The lowest frames -/

omit hcontrol in
theorem shifts_runRoot {stage : RootStage} {below : List Frame}
    (hstack : s.stack = .root stage :: below) : s.Shifts (s.runRoot stage below) := by
  have hroot : forall stage' : RootStage, Retains s.stack (.root stage' :: below) := by
    intro stage'
    rw [hstack]
    exact .replace (fun _ h => h) rfl List.suffix_rfl
  unfold runRoot
  split
  · exact .halt
  · exact .go (hroot _)
  · split
    · exact .go ((hroot _).push rfl rfl)
    · exact .go (hroot _)
  · exact .go (hroot _)
  · exact .halt

theorem shifts_runBase {stage : FiberStage} {below : List Frame}
    (hstack : s.stack = .base stage :: below) : s.Shifts (s.runBase stage below) := by
  unfold runBase
  split
  · exact .exit hcontrol hstack
  · exact .halt

theorem shifts_run : s.Shifts s.run := by
  unfold run
  split
  · rename_i hstack
    exact shifts_runCode hcontrol hstack
  · rename_i hstack
    exact shifts_runCall hstack
  · rename_i hstack
    exact shifts_runDiscarding hcontrol hstack
  · rename_i hstack
    exact shifts_runBase hcontrol hstack
  · rename_i hstack
    exact shifts_runRoot hstack
  · exact .halt
  · exact .halt
  · exact .halt

end Run

/-! ### Landing -/

section Land

variable {source : ContextId}

theorem offers_of_probe {query : Query} {reply : Reply} {purpose : ProbePurpose} {a : Activation}
    {below : List Frame} (hcontrol : s.control = .landed source (.message .handover))
    (hstack : s.stack = .calling (.probe query (some reply) purpose) a :: below) (f : Closure)
    (hf : purpose.function? = some f) : s.Offers f := by
  cases purpose with
  | question question slot => cases hf
  | check switch onTop =>
      cases hf
      exact .kept hcontrol hstack

theorem shifts_conclude {scene : Scene} {below : List Frame} {purpose : ProbePurpose}
    (hupon : s.Upon scene.code.identity below) (reply : Reply)
    (hoffers : forall f, purpose.function? = some f -> s.Offers f) :
    s.Shifts (s.conclude scene below source reply purpose) := by
  unfold conclude
  split
  · split
    · exact .go (hupon.calling rfl)
    · exact .halt
  · split
    · dsimp only
      split
      · exact hupon.depart _ _ hoffers
      · exact .go (.dropFirst (hupon.calling rfl) _)
    · exact .halt

theorem shifts_deliver {a : Activation} {below : List Frame} (hupon : s.Upon a.identity below)
    (h : Handle) (onTop : Option Closure) (target : SlotName) :
    s.Shifts (s.deliver h onTop target a below) :=
  .go (.dropFirst (hupon.calling rfl) _)

theorem shifts_callBody {message : Message} {record : Record} {below : List Frame}
    {caller : Handle} (hcontrol : s.control = .landed source (.message message))
    (hhandle : message.handle? source = some caller)
    (hstack : s.stack = .base (.idle record) :: below) :
    s.Shifts (s.callBody record caller below) := by
  unfold callBody
  split
  · rename_i hbody
    exact .dispatch hcontrol hhandle hstack hbody
  · exact .halt

theorem shifts_receive {message : Message}
    (hcontrol : s.control = .landed source (.message message)) :
    s.Shifts (s.receive source message) := by
  unfold receive
  split
  · rename_i hstack
    split
    · exact .go ((upon_calling hstack).calling rfl)
    · exact .halt
  · rename_i hstack
    split
    · exact shifts_conclude (upon_calling hstack) _ (offers_of_probe hcontrol hstack)
    · exact .halt
    · exact .halt
  · rename_i hstack
    have hupon := upon_calling hstack
    split
    · exact shifts_deliver hupon _ _ _
    · exact shifts_deliver hupon _ _ _
    · exact .answer hcontrol
    · split
      · exact .halt
      · exact .go (.push (hupon.code rfl) rfl rfl)
  · rename_i hstack
    split
    · apply Shifts.go
      rw [hstack]
      exact .pop (fun _ h => h) rfl
    · exact .halt
  · exact .halt
  · rename_i hstack
    split
    · exact shifts_callBody hcontrol rfl hstack
    · exact shifts_callBody hcontrol rfl hstack
    · exact .answer hcontrol
    · exact .evict hcontrol hstack
  · exact .halt
  · exact .halt

theorem shifts_land {signal : Signal} (hcontrol : s.control = .landed source signal) :
    s.Shifts (s.land source signal) := by
  cases signal with
  | message message => exact shifts_receive hcontrol
  | onTop => exact .call hcontrol
  | exit => exact .release hcontrol
  | start record =>
      simp only [land, State.start]
      split
      · rename_i hstack
        exact .start hcontrol hstack
      · exact .halt
      · exact .halt

end Land

/-- What any step does. -/
theorem shifts_step (s : State) : s.Shifts s.step := by
  unfold step
  split
  · rename_i hcontrol
    exact shifts_run hcontrol
  · rename_i source signal hcontrol
    exact shifts_land hcontrol

end State

end Fibers
