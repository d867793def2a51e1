import Placement.Pass.Registry

/-! Sequences of passes. Each pass is given the graph that the one before it made, and what it
needs is looked for in that graph. A sequence is done when all its passes are, and otherwise ends
at the first that is unknown, lacks an attribute or fails; what stands behind that pass is not
looked at. -/
namespace Placement

variable {P : Client}

/-- What there is between two passes: a graph, and the first stamp that is free. -/
structure Stage (P : Client) where
  graph : Graph P
  free : Nat

/-- A pass that was applied under a name, with what happened in its body. -/
structure Applied (P : Client) where
  name : String
  pass : Pass P
  own : List (Event P)

namespace Applied

/-- All that happened: after the events of the body, the pass is reported as finished. -/
def events (a : Applied P) : List (Event P) :=
  a.own ++ [.passFinished a.name a.pass.changesGraph]

/-- The lines of the log: after those of the body, one for the pass. -/
def lines (a : Applied P) : List LogLine :=
  a.own.filterMap Event.logLine? ++
    [⟨.debug, a.name ++ " (change_graph=" ++ Text.Inspect.bool a.pass.changesGraph ++ ")"⟩]

theorem filterMap_logLine?_events (a : Applied P) :
    a.events.filterMap Event.logLine? = a.lines := by
  rw [events, List.filterMap_append]
  rfl

theorem filterMap_logLine?_flatMap (course : List (Applied P)) :
    (course.flatMap events).filterMap Event.logLine? = course.flatMap lines := by
  rw [List.filterMap_flatMap]
  simp only [filterMap_logLine?_events]

end Applied

namespace PassRegistry

/-- The passes lead from one stage to the other: each is registered under its name, finds the
attributes that it needs in the graph before it, and its body makes the graph after it. -/
inductive Course (passes : PassRegistry P) (ops : OpRegistry P) :
    List (Applied P) → Stage P → Stage P → Prop where
  | done (stage : Stage P) : Course passes ops [] stage stage
  | apply (a : Applied P) (course : List (Applied P)) (g after : Graph P) (free drawn : Nat)
      (last : Stage P) (registered : passes.find? a.name = some a.pass)
      (present : ∀ key ∈ a.pass.needs, g.attrs.contains key = true)
      (body : a.pass.body g ops free = ⟨a.own, drawn, .ok after⟩)
      (later : Course passes ops course ⟨after, free + drawn⟩ last) :
      Course passes ops (a :: course) ⟨g, free⟩ last

/-- The pass of a name does not lead on from a stage. Unless it fails in its body, nothing happens
and no stamp is drawn: the body is not run. -/
inductive Breaks (passes : PassRegistry P) (ops : OpRegistry P) (name : String) (stage : Stage P) :
    List (Event P) → Nat → Fault PassError → Prop where
  | unknown (missing : passes.find? name = none) :
      Breaks passes ops name stage [] 0 (.reported (.unknownPass name))
  | lacking (pass : Pass P) (front back : List String) (key : String)
      (registered : passes.find? name = some pass) (declared : pass.needs = front ++ key :: back)
      (present : ∀ earlier ∈ front, stage.graph.attrs.contains earlier = true)
      (absent : stage.graph.attrs.contains key = false) :
      Breaks passes ops name stage [] 0 (.reported (.missingGraphAttr name key))
  | body (pass : Pass P) (own : List (Event P)) (drawn : Nat) (fault : Fault PassError)
      (registered : passes.find? name = some pass)
      (present : ∀ key ∈ pass.needs, stage.graph.attrs.contains key = true)
      (failed : pass.body stage.graph ops stage.free = ⟨own, drawn, .error fault⟩) :
      Breaks passes ops name stage own drawn fault

variable {passes : PassRegistry P} {ops : OpRegistry P}

section

variable {g : Graph P} {pass : Pass P}

theorem lacking?_eq_none (present : ∀ key ∈ pass.needs, g.attrs.contains key = true) :
    pass.lacking? g = none := by
  simpa [Pass.lacking?] using present

theorem lacking?_eq_some {front back : List String} {key : String}
    (declared : pass.needs = front ++ key :: back)
    (present : ∀ earlier ∈ front, g.attrs.contains earlier = true)
    (absent : g.attrs.contains key = false) : pass.lacking? g = some key := by
  rw [Pass.lacking?, List.find?_eq_some_iff_append]
  exact ⟨by simp [absent], front, back, declared, by simpa using present⟩

theorem applyPass_of_registered {name : String} (registered : passes.find? name = some pass) :
    passes.applyPass ops g name = pass.apply g ops := by
  funext free
  have found : Run.ofChecked (P := P) (.ofExcept (passes.lookup name)) free =
      ⟨[], 0, .ok pass⟩ := by
    simp [Run.ofChecked, lookup, Catalog.lookupWith, registered]
  rw [applyPass, Run.bind_ok (congrArg Outcome.result found), found]
  simp

theorem applyPass_of_body {name : String} {free drawn : Nat} {own : List (Event P)}
    {after : Graph P} (registered : passes.find? name = some pass)
    (present : ∀ key ∈ pass.needs, g.attrs.contains key = true)
    (body : pass.body g ops free = ⟨own, drawn, .ok after⟩) :
    passes.applyPass ops g name free =
      ⟨Applied.events ⟨name, pass, own⟩, drawn, .ok after⟩ := by
  obtain rfl : pass.name = name := Catalog.nameOf_of_find? registered
  rw [applyPass_of_registered registered]
  simp only [Pass.apply, lacking?_eq_none present]
  rw [Run.bind_ok (congrArg Outcome.result body), body]
  rfl

end

theorem Breaks.applyPass_eq {name : String} {stage : Stage P} {own : List (Event P)} {drawn : Nat}
    {fault : Fault PassError} (breaks : passes.Breaks ops name stage own drawn fault) :
    passes.applyPass ops stage.graph name stage.free = ⟨own, drawn, .error fault⟩ := by
  cases breaks with
  | unknown missing =>
    simp [applyPass, lookup, Catalog.lookupWith, missing, Run.ofChecked, bind, Run.bind]
  | lacking pass front back key registered declared present absent =>
    obtain rfl : pass.name = name := Catalog.nameOf_of_find? registered
    rw [applyPass_of_registered registered]
    simp only [Pass.apply, lacking?_eq_some declared present absent]
    rfl
  | body pass own drawn fault registered present failed =>
    rw [applyPass_of_registered registered]
    simp only [Pass.apply, lacking?_eq_none present]
    rw [Run.bind_error (congrArg Outcome.result failed), failed]

/-- A pass leads on from a stage or it does not. -/
theorem course_or_breaks (passes : PassRegistry P) (ops : OpRegistry P) (name : String)
    (stage : Stage P) :
    (∃ pass own next, passes.Course ops [⟨name, pass, own⟩] stage next) ∨
      ∃ own drawn fault, passes.Breaks ops name stage own drawn fault := by
  cases registered : passes.find? name with
  | none => exact .inr ⟨_, _, _, .unknown registered⟩
  | some pass =>
    cases lacking : pass.lacking? stage.graph with
    | some key =>
      rw [Pass.lacking?, List.find?_eq_some_iff_append] at lacking
      obtain ⟨absent, front, back, declared, present⟩ := lacking
      exact .inr ⟨_, _, _, .lacking pass front back key registered declared
        (by simpa using present) (by simpa using absent)⟩
    | none =>
      have present : ∀ key ∈ pass.needs, stage.graph.attrs.contains key = true := by
        simpa [Pass.lacking?] using lacking
      cases body : pass.body stage.graph ops stage.free with
      | mk own drawn result =>
        cases result with
        | error fault => exact .inr ⟨_, _, _, .body pass own drawn fault registered present body⟩
        | ok after =>
          exact .inl ⟨pass, own, _, .apply _ [] stage.graph after stage.free drawn _ registered
            present body (.done _)⟩

theorem applyPasses_cons (passes : PassRegistry P) (ops : OpRegistry P) (g : Graph P)
    (name : String) (names : List String) :
    passes.applyPasses ops g (name :: names) =
      passes.applyPass ops g name >>= fun next => passes.applyPasses ops next names :=
  List.foldlM_cons

theorem Course.append {first second : List (Applied P)} {stage middle last : Stage P}
    (before : passes.Course ops first stage middle)
    (after : passes.Course ops second middle last) :
    passes.Course ops (first ++ second) stage last := by
  induction before with
  | done stage => exact after
  | apply a course g next free drawn last registered present body _ ih =>
    exact .apply a _ g next free drawn _ registered present body (ih after)

/-- A course through some passes, whatever names are behind theirs: the rest of the sequence goes
on from where it ends. -/
theorem Course.applyPasses_append {course : List (Applied P)} {stage last : Stage P}
    (runs : passes.Course ops course stage last) : ∃ drawn, last.free = stage.free + drawn ∧
      ∀ names, passes.applyPasses ops stage.graph (course.map Applied.name ++ names) stage.free =
        { trace := course.flatMap Applied.events ++
            (passes.applyPasses ops last.graph names last.free).trace
          drawn := drawn + (passes.applyPasses ops last.graph names last.free).drawn
          result := (passes.applyPasses ops last.graph names last.free).result } := by
  induction runs with
  | done stage => exact ⟨0, rfl, by simp⟩
  | apply a course g after free drawn last registered present body _ ih =>
    obtain ⟨rest, reached, goesOn⟩ := ih
    have applied := applyPass_of_body registered present body
    refine ⟨drawn + rest, by rw [reached, Nat.add_assoc], fun names => ?_⟩
    rw [List.map_cons, List.cons_append, applyPasses_cons,
      Run.bind_ok (congrArg Outcome.result applied), applied]
    simp only at goesOn
    simp only [goesOn, List.flatMap_cons, List.append_assoc, Nat.add_assoc]

theorem Course.applyPasses_eq {course : List (Applied P)} {g : Graph P} {free : Nat}
    {last : Stage P} (runs : passes.Course ops course ⟨g, free⟩ last) :
    ∃ drawn, last.free = free + drawn ∧
      passes.applyPasses ops g (course.map Applied.name) free =
        ⟨course.flatMap Applied.events, drawn, .ok last.graph⟩ := by
  obtain ⟨drawn, reached, goesOn⟩ := runs.applyPasses_append
  refine ⟨drawn, reached, ?_⟩
  have whole := goesOn []
  rw [List.append_nil] at whole
  rw [whole]
  simp [applyPasses, pure, Run.pure]

theorem Breaks.applyPasses_eq {course : List (Applied P)} {g : Graph P} {free : Nat}
    {last : Stage P} {name : String} {own : List (Event P)} {drawn : Nat} {fault : Fault PassError}
    (breaks : passes.Breaks ops name last own drawn fault)
    (runs : passes.Course ops course ⟨g, free⟩ last) (back : List String) :
    ∃ total, last.free + drawn = free + total ∧
      passes.applyPasses ops g (course.map Applied.name ++ name :: back) free =
        ⟨course.flatMap Applied.events ++ own, total, .error fault⟩ := by
  obtain ⟨before, reached, goesOn⟩ := runs.applyPasses_append
  refine ⟨before + drawn, by rw [reached, Nat.add_assoc], ?_⟩
  have stopped := breaks.applyPass_eq
  have whole := goesOn (name :: back)
  rw [applyPasses_cons, Run.bind_error (congrArg Outcome.result stopped), stopped] at whole
  exact whole

/-- Every sequence runs to its end or up to a pass that does not lead on. -/
theorem course_of_names (passes : PassRegistry P) (ops : OpRegistry P) (names : List String)
    (stage : Stage P) :
    (∃ course last, course.map Applied.name = names ∧ passes.Course ops course stage last) ∨
      ∃ course last name back own drawn fault, names = course.map Applied.name ++ name :: back ∧
        passes.Course ops course stage last ∧ passes.Breaks ops name last own drawn fault := by
  induction names generalizing stage with
  | nil => exact .inl ⟨[], stage, rfl, .done stage⟩
  | cons name names ih =>
    rcases passes.course_or_breaks ops name stage with
      ⟨pass, own, next, first⟩ | ⟨own, drawn, fault, breaks⟩
    · rcases ih next with
        ⟨course, last, rfl, later⟩ |
        ⟨course, last, other, back, own', drawn, fault, rfl, later, breaks⟩
      · exact .inl ⟨_ :: course, last, rfl, first.append later⟩
      · exact .inr ⟨_ :: course, last, other, back, own', drawn, fault, rfl, first.append later,
          breaks⟩
    · exact .inr ⟨[], stage, name, names, own, drawn, fault, rfl, .done stage, breaks⟩

structure RunsInSequence (passes : PassRegistry P) (ops : OpRegistry P) (g : Graph P)
    (free : Nat) : Prop where
  joined : ∀ xs ys middle, (passes.applyPasses ops g xs free).result = .ok middle →
    let first := passes.applyPasses ops g xs free
    let second := passes.applyPasses ops middle ys (free + first.drawn)
    passes.applyPasses ops g (xs ++ ys) free =
      ⟨first.trace ++ second.trace, first.drawn + second.drawn, second.result⟩
  cut : ∀ xs ys fault, (passes.applyPasses ops g xs free).result = .error fault →
    passes.applyPasses ops g (xs ++ ys) free = passes.applyPasses ops g xs free
  succeeds : ∀ names result, (passes.applyPasses ops g names free).result = .ok result ↔
    ∃ course last, course.map Applied.name = names ∧ passes.Course ops course ⟨g, free⟩ last ∧
      last.graph = result
  fails : ∀ names fault, (passes.applyPasses ops g names free).result = .error fault ↔
    ∃ course last name back own drawn, names = course.map Applied.name ++ name :: back ∧
      passes.Course ops course ⟨g, free⟩ last ∧ passes.Breaks ops name last own drawn fault
  completed : ∀ course last, passes.Course ops course ⟨g, free⟩ last →
    let outcome := passes.applyPasses ops g (course.map Applied.name) free
    outcome.trace = course.flatMap Applied.events ∧
      outcome.trace.filterMap Event.logLine? = course.flatMap Applied.lines ∧
      last.free = free + outcome.drawn
  stopped : ∀ course last name back own drawn fault, passes.Course ops course ⟨g, free⟩ last →
    passes.Breaks ops name last own drawn fault →
    let outcome := passes.applyPasses ops g (course.map Applied.name ++ name :: back) free
    outcome.trace = course.flatMap Applied.events ++ own ∧
      outcome.trace.filterMap Event.logLine? =
        course.flatMap Applied.lines ++ own.filterMap Event.logLine? ∧
      last.free + drawn = free + outcome.drawn
  unread : ∀ (others : PassRegistry P) course last name back back' own drawn fault,
    passes.Course ops course ⟨g, free⟩ last → passes.Breaks ops name last own drawn fault →
    others.Course ops course ⟨g, free⟩ last → others.Breaks ops name last own drawn fault →
    others.applyPasses ops g (course.map Applied.name ++ name :: back') free =
      passes.applyPasses ops g (course.map Applied.name ++ name :: back) free

/-- A sequence of passes is its parts one after the other. It succeeds exactly when its passes lead
from graph to graph, fails exactly where the first of them does not, and logs one line for each
pass that succeeded. -/
theorem applyPasses_inSequence (passes : PassRegistry P) (ops : OpRegistry P) (g : Graph P)
    (free : Nat) : passes.RunsInSequence ops g free := by
  have append : ∀ xs ys, passes.applyPasses ops g (xs ++ ys) =
      passes.applyPasses ops g xs >>= fun middle => passes.applyPasses ops middle ys :=
    fun xs ys => List.foldlM_append
  constructor
  · intro xs ys middle succeeded
    rw [append, Run.bind_ok succeeded]
  · intro xs ys fault failed
    rw [append, Run.bind_error failed, ← failed]
  · intro names result
    constructor
    · intro succeeded
      rcases passes.course_of_names ops names ⟨g, free⟩ with
        ⟨course, last, rfl, runs⟩ | ⟨course, last, name, back, own, drawn, fault, rfl, runs, breaks⟩
      · obtain ⟨drawn, _, whole⟩ := runs.applyPasses_eq
        rw [whole] at succeeded
        exact ⟨course, last, rfl, runs, Except.ok.inj succeeded⟩
      · obtain ⟨total, _, whole⟩ := breaks.applyPasses_eq runs back
        rw [whole] at succeeded
        cases succeeded
    · rintro ⟨course, last, rfl, runs, rfl⟩
      obtain ⟨drawn, _, whole⟩ := runs.applyPasses_eq
      rw [whole]
  · intro names fault
    constructor
    · intro failed
      rcases passes.course_of_names ops names ⟨g, free⟩ with
        ⟨course, last, rfl, runs⟩ | ⟨course, last, name, back, own, drawn, other, rfl, runs, breaks⟩
      · obtain ⟨drawn, _, whole⟩ := runs.applyPasses_eq
        rw [whole] at failed
        cases failed
      · obtain ⟨total, _, whole⟩ := breaks.applyPasses_eq runs back
        rw [whole] at failed
        cases failed
        exact ⟨course, last, name, back, own, drawn, rfl, runs, breaks⟩
    · rintro ⟨course, last, name, back, own, drawn, rfl, runs, breaks⟩
      obtain ⟨total, _, whole⟩ := breaks.applyPasses_eq runs back
      rw [whole]
  · intro course last runs
    obtain ⟨drawn, reached, whole⟩ := runs.applyPasses_eq
    rw [whole]
    exact ⟨rfl, Applied.filterMap_logLine?_flatMap course, reached⟩
  · intro course last name back own drawn fault runs breaks
    obtain ⟨total, reached, whole⟩ := breaks.applyPasses_eq runs back
    rw [whole]
    refine ⟨rfl, ?_, reached⟩
    rw [List.filterMap_append, Applied.filterMap_logLine?_flatMap]
  · intro others course last name back back' own drawn fault runs breaks runs' breaks'
    obtain ⟨total, reached, whole⟩ := breaks.applyPasses_eq runs back
    obtain ⟨total', reached', whole'⟩ := breaks'.applyPasses_eq runs' back'
    obtain rfl : total = total' := by omega
    rw [whole, whole']

def tagPass : Pass .plain where
  name := "Tag"
  body g _ := Run.allocate g "tagged" ⟨.bool, true⟩
  provides := ["tagged"]

def needsTagPass : Pass .plain where
  name := "NeedsTag"
  body g _ := Run.pure g
  changesGraph := true
  needs := ["tagged"]

def tagPasses : PassRegistry .plain := ((Catalog.single tagPass).add? needsTagPass).getD .empty

theorem find?_tagPasses :
    tagPasses.find? "Tag" = some tagPass ∧ tagPasses.find? "NeedsTag" = some needsTagPass := by
  simp [tagPasses, Catalog.single, Catalog.add?, Catalog.find?, Catalog.contains, Catalog.empty,
    Named.nameOf, tagPass, needsTagPass, Std.ExtTreeMap.getElem_insert]

theorem applyPasses_inSequence_tagged :
    ((∃ result, (tagPasses.applyPasses .empty { arena := 0 } ["Tag", "NeedsTag"] 5).result =
        .ok result) ∧
      (tagPasses.applyPasses .empty { arena := 0 } ["Tag", "NeedsTag"] 5).trace.filterMap
        Event.logLine? =
          [⟨.debug, "Tag (change_graph=false)"⟩, ⟨.debug, "NeedsTag (change_graph=true)"⟩]) ∧
    (tagPasses.applyPasses .empty { arena := 0 } ["NeedsTag", "Tag"] 5).result =
        .report (.missingGraphAttr "NeedsTag" "tagged") ∧
      (tagPasses.applyPasses .empty { arena := 0 } ["NeedsTag", "Tag"] 5).trace = [] := by
  obtain ⟨first, second⟩ := find?_tagPasses
  have runs := applyPasses_inSequence tagPasses .empty { arena := 0 } 5
  constructor
  · have course : tagPasses.Course .empty [⟨"Tag", tagPass, []⟩, ⟨"NeedsTag", needsTagPass, []⟩]
        ⟨{ arena := 0 }, 5⟩
        ⟨{ arena := 0, attrs := Store.empty.insert "tagged" ⟨5, ⟨.bool, true⟩⟩ }, 6⟩ := by
      refine .apply _ _ _ _ 5 1 _ first (by simp [tagPass]) rfl ?_
      refine .apply _ _ _ _ 6 0 _ second ?_ rfl (.done _)
      simp [needsTagPass, Store.contains_eq_isSome_find?, Store.find?_insert]
    exact ⟨⟨_, (runs.succeeds _ _).mpr ⟨_, _, rfl, course, rfl⟩⟩, (runs.completed _ _ course).2.1⟩
  · have lacks : tagPasses.Breaks .empty "NeedsTag" ⟨{ arena := 0 }, 5⟩ [] 0
        (.reported (.missingGraphAttr "NeedsTag" "tagged")) := by
      refine .lacking needsTagPass [] [] "tagged" second rfl (by simp) ?_
      simp [Store.contains, Store.empty]
    exact ⟨(runs.fails _ _).mpr ⟨[], _, "NeedsTag", ["Tag"], _, _, rfl, .done _, lacks⟩,
      (runs.stopped [] _ "NeedsTag" ["Tag"] _ _ _ (.done _) lacks).1⟩

end PassRegistry
end Placement
