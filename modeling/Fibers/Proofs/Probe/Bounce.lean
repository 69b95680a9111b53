import Fibers.Proofs.Protocol

/-!
# Probes come back

A question about a parked context really switches to it and back.  After five steps everything is as
it was, but for what is left of the code, and for the log.  The answer is read off what the context
is parked in, so asking changes no answer, its own included.
-/

namespace Fibers

/-! ## Handles that are looked up -/

/-- What is taken out of a slot, if it is live, goes back there and leaves no trace. -/
theorem Activation.put_of_take {a a' : Activation} {name : SlotName} {fiber : ContextId}
    (h : a.take name = (.live fiber, a')) : a'.put name (.live fiber) = (.empty, a) := by
  unfold take at h
  split at h
  · rename_i old blocks hx
    cases h
    simp only [put, exchangeBlock_undo hx]
  · cases h

/-- A world whose log has got further entries. -/
def World.after (w : World) (entries : List LogEntry) : World := { w with log := entries ++ w.log }

theorem World.put_of_take {w w' : World} {name : String} {fiber : ContextId}
    (entries : List LogEntry) (h : w.take name = (.live fiber, w')) :
    (w'.after entries).put name (.live fiber) = (.empty, w.after entries) := by
  unfold take at h
  split at h
  · rename_i old globals hx
    cases h
    simp only [put, after, exchangeShared_undo hx]
  · cases h

theorem Scene.put_of_take {s s' : Scene} {slot : SlotName} {fiber : ContextId}
    (entries : List LogEntry) (h : s.take slot = (.live fiber, s')) :
    Scene.put ⟨s'.world.after entries, s'.code⟩ slot (.live fiber) =
      (.empty, ⟨s.world.after entries, s.code⟩) := by
  cases slot with
  | own name =>
      simp only [take, Prod.mk.injEq] at h
      rcases h with ⟨hlive, rfl⟩
      have hput := Activation.put_of_take (Prod.ext hlive rfl : s.code.take (.own name) = (_, _))
      simp only [put, hput]
  | shared name =>
      simp only [take, Prod.mk.injEq] at h
      rcases h with ⟨hlive, rfl⟩
      have hput := World.put_of_take entries (Prod.ext hlive rfl : s.world.take name = (_, _))
      simp only [put, hput]

/-- What is left of running code when its next operation is done. -/
def Activation.advance (a : Activation) : Activation :=
  match a.blocks with
  | b :: outer => { a with blocks := { b with code := b.code.tail } :: outer }
  | [] => a

@[simp] theorem Activation.label_advance (a : Activation) : a.advance.label = a.label := by
  unfold advance
  split <;> rfl

@[simp] theorem Scene.hosts_take {s : Scene} (slot : SlotName) :
    (s.take slot).2.world.hosts = s.world.hosts := by
  cases slot with
  | own name => rfl
  | shared name =>
      cases hx : exchangeShared name .empty s.world.globals <;> simp [take, World.take, hx]

namespace State

variable {s : State} {lost : List ContextId} {question : Question} {slot : SlotName}
  {target : ContextId}

/-- The handle that running code has in a slot. -/
def handleIn (s : State) (slot : SlotName) : Handle :=
  match s.stack with
  | .code a :: _ => ((Scene.mk s.world a.advance).take slot).1
  | _ => .empty

/-! ## Answers -/

/-- The binding of a context that is parked with a stack. -/
def bindingIn : List Frame -> Affinity
  | .calling (.resume host _ _) _ :: _ => .bound host
  | _ => .unbound

def bindingOf (s : State) (c : ContextId) : Affinity := bindingIn ((s.parked? c).getD [])

/-- The answer to a question about a parked context. -/
def answerTo (s : State) (question : Question) (c : ContextId) : Note :=
  match question with
  | .canResume host => .canResume ((s.bindingOf c).allows (s.world.hosts.resolve host))
  | .canResumeAnywhere => .canResumeAnywhere (s.world.kindOf c).canMove
  | .affinity => .affinity (s.bindingOf c)
  | .stackKind => .stackKind (s.world.kindOf c)

/-- The reply to a query, from which the answer is read. -/
def replyTo (s : State) (query : Query) (c : ContextId) : Reply :=
  match query with
  | .affinity => .affinity (s.bindingOf c)
  | .stackKind => .stackKind (s.world.kindOf c)

theorem note?_replyTo : question.note? s.world.hosts (s.replyTo question.query target) =
    some (s.answerTo question target) := by
  cases question <;> rfl

/-- The state after a question has been asked and answered. -/
def asked (s : State) (question : Question) (target : ContextId) : State :=
  match s.stack with
  | .code a :: below =>
      { s with
        world := (s.world.trace (.probed target question.query)).note a.label
          (s.answerTo question target)
        stack := .code a.advance :: below }
  | _ => s

/-- Asking changes no answer. -/
@[simp] theorem answerTo_asked (asking question : Question) (target c : ContextId) :
    (s.asked asking target).answerTo question c = s.answerTo question c := by
  unfold asked
  split
  · cases question <;> rfl
  · rfl

/-! ## There and back -/

/-- A switch to a parked context and back leaves the list of contexts as it was. -/
theorem replaceStack_bounce {c d : ContextId} {stack waiting : List Frame}
    {contexts : List (ContextId × List Frame)} (hcd : c ≠ d)
    (hc : contexts.lookup c = some []) (hd : contexts.lookup d = some stack) :
    replaceStack c [] (replaceStack d stack (replaceStack d [] (replaceStack c waiting contexts))) =
      contexts := by
  rw [replaceStack_replaceStack, replaceStack_comm hcd, replaceStack_replaceStack,
    replaceStack_of_lookup hc, replaceStack_of_lookup hd]

theorem operation?_eq_some {op : Op} (h : s.operation? = some op) :
    exists a below b outer rest, s.control = .run ∧ s.stack = .code a :: below ∧
      a.flow = .onward ∧ a.blocks = b :: outer ∧ b.code = op :: rest := by
  unfold operation? at h
  split at h
  · rename_i a below hrun hstack
    split at h
    · rename_i b outer hflow hblocks
      rcases List.head?_eq_some_iff.mp h with ⟨rest, hcode⟩
      exact ⟨a, below, b, outer, rest, hrun, hstack, hflow, hblocks, hcode⟩
    · cases h
  · cases h

theorem operation?_of_onward {a : Activation} {below : List Frame} {b : Block} {outer : List Block}
    (hrun : s.control = .run) (hstack : s.stack = .code a :: below) (hflow : a.flow = .onward)
    (hblocks : a.blocks = b :: outer) : s.operation? = b.code.head? := by
  simp only [State.operation?, hrun, hstack, hflow, hblocks]

theorem step_of_operation {a : Activation} {op : Op} {below : List Frame}
    (hstack : s.stack = .code a :: below) (h : s.operation? = some op) :
    s.step = s.execute ⟨s.world, a.advance⟩ below op := by
  rcases operation?_eq_some h with
    ⟨a', below', b, outer, rest, hrun, hstack', hflow, hblocks, hcode⟩
  cases hstack.symm.trans hstack'
  simp only [step, hrun, run, hstack, runCode, hblocks, hflow, hcode, Activation.advance,
    List.tail_cons]

/-- A handle in a slot names a context that is parked, and waits to be resumed. -/
theorem Sound.parked_of_slot {a : Activation} {below : List Frame} {scene : Scene}
    (h : s.Sound lost) (hstack : s.stack = .code a :: below)
    (htaken : (Scene.mk s.world a.advance).take slot = (.live target, scene)) :
    target ≠ s.running ∧ exists there, s.parked? target = some there ∧ AtRest there := by
  have hholdings : (Activation.advance a).holdings = a.holdings := by
    unfold Activation.advance
    split
    · rename_i b outer hblocks
      simp [Activation.holdings, Block.holdings, hblocks]
    · rfl
  have hcount := (Scene.mk s.world a.advance).take_count (x := .token .handle target) slot
  rw [htaken] at hcount
  have hheld : .token .handle target ∈ s.holdings := by
    rw [<- List.count_pos_iff]
    simp only [Scene.holdings, hholdings, Handle.holdings, List.count_append,
      List.count_cons_self, List.count_nil] at hcount
    simp only [holdings, pool, hstack, stackHoldings_cons, Frame.holdings, List.count_append]
    omega
  rcases h.parked_of_token (List.count_pos_iff.mpr hheld) with ⟨there, hthere, hneed⟩
  have hne := h.ne_running hthere hneed
  exact ⟨hne, there, hthere, .of_needOf (h.parked _ _ hne hthere).1 hneed⟩

/-- A parked context answers at once, with its binding. -/
theorem step_of_query {source : ContextId} (hrest : AtRest s.stack)
    (hcontrol : s.control = .landed source (.message .query)) :
    s.step = s.answer source (bindingIn s.stack) := by
  rcases hrest with ⟨record, hstack⟩ | ⟨host, name, a, below, hstack⟩
  · simp only [step, hcontrol, land, receive, hstack, bindingIn]
  · simp only [step, hcontrol, land, receive, hstack, bindingIn]

/-- The probed context answers, and control is back where the question was asked. -/
theorem Sound.step_of_probe {w : World} {there : List Frame} (h : s.Sound lost)
    (hne : target ≠ s.running) (hthere : s.parked? target = some there) (hrest : AtRest there)
    (hsame : w.kindOf target = s.world.kindOf target) (query : Query) (purpose : ProbePurpose)
    (a : Activation) (below : List Frame) :
    (s.hop w (.calling (.probe query none purpose) a :: below) target there
      (.message .query)).step =
      .active
        { s with
          world := w
          stack := .calling (.probe query (some (s.replyTo query target)) purpose) a :: below
          control := .landed target (.message .handover) } := by
  have hprober := parked?_hop w (.calling (.probe query none purpose) a :: below) there
    (.message .query) h.listed hthere hne s.running
  rw [if_neg hne.symm, if_pos rfl] at hprober
  have hbinding : bindingIn there = s.bindingOf target := by
    rw [bindingOf, hthere]
    rfl
  have hanswer : (s.hop w (.calling (.probe query none purpose) a :: below) target there
      (.message .query)).step = _ := step_of_query hrest rfl
  rw [hanswer, show State.stack _ = there from rfl, hbinding]
  have hkind : (s.hop w (.calling (.probe query none purpose) a :: below) target there
      (.message .query)).kind = s.world.kindOf target := hsame
  simp only [State.answer, hprober, hkind]
  have hback : s.running ≠ (s.hop w (.calling (.probe query none purpose) a :: below) target there
      (.message .query)).running := hne.symm
  rw [transfer_replaceStack hprober hback (List.cons_ne_nil _ _)]
  simp only [State.hop, replaceStack_bounce hne.symm h.listed hthere]
  cases query <;> rfl

/-- What is left of an answered question: the handle goes back, and the answer is noted. -/
theorem after_reply {w : World} {reply : Reply} {n : Note} {scene : Scene} {a : Activation}
    {below : List Frame} (hcontrol : s.control = .landed target (.message .handover))
    (hstack : s.stack = .calling (.probe question.query (some reply) (.question question slot))
      scene.code :: below)
    (hnote : question.note? s.world.hosts reply = some n)
    (hput : Scene.put ⟨s.world, scene.code⟩ slot (.live target) = (.empty, ⟨w, a⟩)) :
    Config.after 3 (.active s) =
      .active { s with world := w.note a.label n, stack := .code a :: below, control := .run } := by
  have hconclude : s.step = .active
      { s with
        stack := .calling (.store [(slot, .live target)] (some n)) scene.code :: below
        control := .run } := by
    simp only [step, hcontrol, land, receive, hstack, conclude, hnote, go]
  have hstore : State.step
      { s with
        stack := .calling (.store [(slot, .live target)] (some n)) scene.code :: below
        control := .run } = .active
      { s with
        world := w
        stack := .calling (.store [] (some n)) a :: below
        control := .run } := by
    simp only [step, run, runCall, hput]
    rfl
  calc Config.after 3 (.active s)
    _ = Config.after 2 s.step := rfl
    _ = Config.after 1 (State.step
        { s with
          stack := .calling (.store [(slot, .live target)] (some n)) scene.code :: below
          control := .run }) := by rw [hconclude]; rfl
    _ = _ := by rw [hstore]; rfl

/-- After five steps the question is answered, and all else is as before. -/
theorem Sound.bounce (h : s.Sound lost) (hop : s.operation? = some (.ask question slot))
    (hlive : s.handleIn slot = .live target) :
    Config.after 5 (.active s) = .active (s.asked question target) := by
  rcases operation?_eq_some hop with ⟨a, below, b, outer, rest, hrun, hstack, -⟩
  have hfirst := step_of_operation hstack hop
  simp only [handleIn, hstack] at hlive
  generalize htaken : (Scene.mk s.world a.advance).take slot = taken at hlive
  rcases taken with ⟨handle, scene⟩
  cases hlive
  rcases h.parked_of_slot hstack htaken with ⟨hne, there, hthere, hrest⟩
  have hbooks : scene.world.books = s.world.books := by
    have htakes := (Scene.mk s.world a.advance).books_take slot
    rwa [htaken] at htakes
  have hhosts : scene.world.hosts = s.world.hosts := by
    have htakes := (Scene.mk s.world a.advance).hosts_take slot
    rwa [htaken] at htakes
  -- The first step leads there, the second one back, and the others put the handle in its place.
  have hleaves : s.step = .active (s.hop (scene.world.trace (.probed target question.query))
      (.calling (.probe question.query none (.question question slot)) scene.code :: below) target
      there (.message .query)) := by
    rw [hfirst]
    simp only [execute, ask, htaken]
    exact transfer_eq_hop hthere hrest.ne_nil
  have hkind : (scene.world.trace (.probed target question.query)).kindOf target =
      s.world.kindOf target :=
    World.kindOf_of_books hbooks target
  have hreturns := h.step_of_probe hne hthere hrest hkind question.query
    (.question question slot) scene.code below
  have hput := Scene.put_of_take [.traced (.probed target question.query)] htaken
  have hnote : question.note? (scene.world.trace (.probed target question.query)).hosts
      (s.replyTo question.query target) = some (s.answerTo question target) := by
    have hsame : (scene.world.trace (.probed target question.query)).hosts = s.world.hosts := hhosts
    rw [hsame]
    exact note?_replyTo
  calc Config.after 5 (.active s)
    _ = Config.after 4 s.step := rfl
    _ = Config.after 3 (State.step (s.hop (scene.world.trace (.probed target question.query))
          (.calling (.probe question.query none (.question question slot)) scene.code :: below)
          target there (.message .query))) := by rw [hleaves]; rfl
    _ = _ := by
      rw [hreturns]
      refine (after_reply rfl rfl hnote hput).trans ?_
      simp only [asked, hstack, hrun, Activation.label_advance]
      rfl

end State

end Fibers
