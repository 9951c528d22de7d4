import Regen.Document

/-! Matching blocks against a machine that reads chunks one by one and keeps the
blocks that are open on a stack. The two agree on every list of chunks that
opens no more blocks at a time than may be open, faults included; what they
accept are the lists in which starts and stops pair up like brackets. -/
namespace Regen.Bracket

/-- A block that is open, and the nodes before it on its level. -/
structure Frame where
  start : Start
  before : List Node

/-- The nodes read on the current level, and the open blocks, innermost first. -/
structure State where
  level : List Node
  frames : List Frame

namespace State

def initial : State := ⟨[], []⟩

/-- The name that the next stop has to have. -/
def innermost? (state : State) : Option Header.ActionName :=
  state.frames.head?.map fun frame => frame.start.name

/-- The state with more nodes on the current level. -/
def add (state : State) (nodes : List Node) : State := ⟨state.level ++ nodes, state.frames⟩

/-- The state inside one more open block. -/
def push (state : State) (start : Start) : State := ⟨[], ⟨start, state.level⟩ :: state.frames⟩

@[simp] theorem frames_push (state : State) (start : Start) :
    (state.push start).frames = ⟨start, state.level⟩ :: state.frames := rfl

@[simp] theorem innermost?_push (state : State) (start : Start) :
    (state.push start).innermost? = some start.name := rfl

@[simp] theorem frames_add (state : State) (nodes : List Node) :
    (state.add nodes).frames = state.frames := rfl

@[simp] theorem innermost?_add (state : State) (nodes : List Node) :
    (state.add nodes).innermost? = state.innermost? := rfl

@[simp] theorem add_nil (state : State) : state.add [] = state := by
  simp [add]

theorem add_add (state : State) (nodes more : List Node) :
    (state.add nodes).add more = state.add (nodes ++ more) := by
  simp [add]

end State

/-- The report of a stop that closes nothing. -/
def unopened (file : String) (stop : Stop) : Fault :=
  ⟨.markup .unopened stop.raw, some stop.loc, some file⟩

/-- The report of a start that is never closed. -/
def unclosed (file : String) (start : Start) : Fault :=
  ⟨.markup .unclosed start.raw, some start.loc, some file⟩

/-- The state after one more chunk. -/
def step (file : String) (state : State) : Chunk → Except Fault State
  | .text content _ => .ok (state.add [.text content])
  | .start start => .ok (state.push start)
  | .stop stop =>
    match state.frames with
    | [] => .error (unopened file stop)
    | frame :: frames =>
      if stop.name = frame.start.name then
        .ok ⟨frame.before ++ [.block ⟨frame.start, stop.raw⟩ state.level], frames⟩
      else .error (unopened file stop)

/-- The state after several chunks. -/
def run (file : String) (state : State) : List Chunk → Except Fault State
  | [] => .ok state
  | chunk :: more =>
    match step file state chunk with
    | .error fault => .error fault
    | .ok next => run file next more

/-- What is read when the chunks have run out. -/
def finish (file : String) (state : State) : Except Fault (List Node) :=
  match state.frames with
  | [] => .ok state.level
  | frame :: _ => .error (unclosed file frame.start)

/-- The nodes that chunks spell. -/
def read (file : String) (chunks : List Chunk) : Except Fault (List Node) :=
  match run file .initial chunks with
  | .error fault => .error fault
  | .ok state => finish file state

/-- The greatest number of blocks open at a time until the machine stops. -/
def peak (file : String) (state : State) : List Chunk → Nat
  | [] => state.frames.length
  | chunk :: more =>
    match step file state chunk with
    | .error _ => state.frames.length
    | .ok next => max state.frames.length (peak file next more)

/-- Chunks that spell a forest: texts, and blocks whose stop repeats the name of
the start, with a forest between the two. -/
inductive Spells : List Chunk → List Node → Prop
  | nil : Spells [] []
  | text {content : Text} {loc : Position} {more : List Chunk} {nodes : List Node} :
    Spells more nodes → Spells (.text content loc :: more) (.text content :: nodes)
  | block {start : Start} {stop : Stop} {inner more : List Chunk} {body nodes : List Node} :
    stop.name = start.name → Spells inner body → Spells more nodes →
      Spells (.start start :: (inner ++ .stop stop :: more)) (.block ⟨start, stop.raw⟩ body :: nodes)

/-- Chunks that lead to a state: for every open block those before its start
spell the nodes before it, and those after the innermost start the level. -/
inductive Leads : List Chunk → State → Prop
  | outside {chunks : List Chunk} {nodes : List Node} : Spells chunks nodes → Leads chunks ⟨nodes, []⟩
  | inside {outer inner : List Chunk} {start : Start} {before nodes : List Node} {frames : List Frame} :
    Leads outer ⟨before, frames⟩ → Spells inner nodes →
      Leads (outer ++ .start start :: inner) ⟨nodes, ⟨start, before⟩ :: frames⟩

section Machine
variable {file : String} {state next : State} {chunks more : List Chunk} {nodes body : List Node}

theorem step_stop_of_innermost {stop : Stop} {frame : Frame} {frames : List Frame}
    (inside : state.frames = frame :: frames) (same : stop.name = frame.start.name) :
    step file state (.stop stop) =
      .ok ⟨frame.before ++ [.block ⟨frame.start, stop.raw⟩ state.level], frames⟩ := by
  simp [step, inside, same]

theorem step_stop_of_other {stop : Stop} (other : state.innermost? ≠ some stop.name) :
    step file state (.stop stop) = .error (unopened file stop) := by
  unfold step
  cases frames : state.frames with
  | nil => rfl
  | cons frame frames' =>
    have different : stop.name ≠ frame.start.name := by
      intro same
      exact other (by simp [State.innermost?, frames, same])
    simp [different]

theorem run_append (first : run file state chunks = .ok next) :
    run file state (chunks ++ more) = run file next more := by
  induction chunks generalizing state with
  | nil =>
    cases first
    rfl
  | cons chunk chunks ih =>
    simp only [run, List.cons_append] at first ⊢
    cases stepped : step file state chunk with
    | error fault => simp [stepped] at first
    | ok reached =>
      simp only [stepped] at first ⊢
      exact ih first

theorem run_singleton {chunk : Chunk} (stepped : step file state chunk = .ok next) :
    run file state [chunk] = .ok next := by
  simp [run, stepped]

theorem step_stop_push {start : Start} {stop : Stop} (same : stop.name = start.name) :
    step file ((state.push start).add body) (.stop stop) =
      .ok (state.add [.block ⟨start, stop.raw⟩ body]) := by
  rw [step_stop_of_innermost (State.frames_add ..) same]
  simp [State.add, State.push]

/-- A block whose inside the machine reads is one more node on the level. -/
theorem run_block {start : Start} {stop : Stop} (same : stop.name = start.name)
    (inside : run file (state.push start) chunks = .ok ((state.push start).add body)) :
    run file state (.start start :: (chunks ++ [.stop stop])) =
      .ok (state.add [.block ⟨start, stop.raw⟩ body]) := by
  change run file (state.push start) (chunks ++ [.stop stop]) = _
  rw [run_append inside, run_singleton (step_stop_push same)]

theorem frames_le_peak : state.frames.length ≤ peak file state chunks := by
  cases chunks with
  | nil => exact Nat.le_refl _
  | cons chunk chunks =>
    unfold peak
    split
    · exact Nat.le_refl _
    · exact Nat.le_max_left ..

theorem peak_append_le (first : run file state chunks = .ok next) :
    peak file next more ≤ peak file state (chunks ++ more) := by
  induction chunks generalizing state with
  | nil =>
    cases first
    exact Nat.le_refl _
  | cons chunk chunks ih =>
    simp only [run, List.cons_append, peak] at first ⊢
    cases stepped : step file state chunk with
    | error fault => simp [stepped] at first
    | ok reached =>
      simp only [stepped] at first ⊢
      exact Nat.le_trans (ih first) (Nat.le_max_right ..)

end Machine

/-- What the outcome of matching from here on says about the machine, which has
`state` and reads the same chunks. -/
def Agrees (file : String) (limit : Nat) (state : State) (chunks : List Chunk) {bound : Nat} :
    Except MatchFault (Siblings bound) → Prop
  | .ok ⟨nodes, none, _⟩ => run file state chunks = .ok (state.add nodes)
  | .ok ⟨nodes, some (stop, rest), _⟩ =>
    state.innermost? = some stop.name ∧
      ∃ inner, chunks = inner ++ .stop stop :: rest ∧ run file state inner = .ok (state.add nodes)
  | .error (.unopened stop) => run file state chunks = .error (unopened file stop)
  | .error (.unclosed start) =>
    ∃ level before frames, run file state chunks = .ok ⟨level, ⟨start, before⟩ :: frames⟩
  | .error .tooDeep => limit < peak file state chunks

section Matching
variable {file : String} {limit : Nat} {state next : State} {chunks more all : List Chunk}

/-- Chunks read before do not change what a fault says. -/
theorem agrees_of_run {bound other : Nat} {fault : MatchFault}
    (whole : all = chunks ++ more) (first : run file state chunks = .ok next)
    (agrees : Agrees file limit next more (.error fault : Except MatchFault (Siblings bound))) :
    Agrees file limit state all (.error fault : Except MatchFault (Siblings other)) := by
  subst whole
  cases fault with
  | tooDeep => exact Nat.lt_of_lt_of_le agrees (peak_append_le first)
  | unclosed start =>
    obtain ⟨level, before, frames, ran⟩ := agrees
    exact ⟨level, before, frames, (run_append first).trans ran⟩
  | unopened stop => exact (run_append first).trans agrees

/-- Nodes read before are put in front of the siblings that follow them. -/
theorem agrees_push {bound other : Nat} {node : Node} {siblings : Siblings bound} {le : bound ≤ other}
    (whole : all = chunks ++ more) (first : run file state chunks = .ok (state.add [node]))
    (agrees : Agrees file limit (state.add [node]) more (.ok siblings)) :
    Agrees file limit state all (.ok (siblings.push node le)) := by
  subst whole
  obtain ⟨nodes, ended, shorter⟩ := siblings
  cases ended with
  | none =>
    rw [Agrees, State.add_add] at agrees
    exact (run_append first).trans agrees
  | some found =>
    obtain ⟨stop, rest⟩ := found
    obtain ⟨innermost, inner, rfl, ran⟩ := agrees
    rw [State.add_add] at ran
    exact ⟨innermost, chunks ++ inner, (List.append_assoc ..).symm, (run_append first).trans ran⟩

/-- The recursion and the machine do the same from every state: the name that
the recursion expects is that of the innermost open block, and the room it has
is what the stack leaves of the limit. -/
theorem matchBlocks_agrees (file : String) (room : Nat) (expected : Option Header.ActionName)
    (chunks : List Chunk) (state : State) (innermost : state.innermost? = expected) :
    Agrees file (room + state.frames.length) state chunks (matchBlocks room expected chunks) := by
  -- Both recursive calls are at chunks the machine reaches: after a start with that start on the
  -- stack, and after the stop that closes it with one more node on the level.
  fun_induction matchBlocks room expected chunks generalizing state with
  | case1 => exact congrArg Except.ok (State.add_nil state).symm
  | case2 room expected content loc more fault failed ih =>
    have agrees := ih (state.add [.text content]) innermost
    rw [failed] at agrees
    exact agrees_of_run List.singleton_append.symm (run_singleton rfl) agrees
  | case3 room expected content loc more siblings matched ih =>
    have agrees := ih (state.add [.text content]) innermost
    rw [matched] at agrees
    exact agrees_push List.singleton_append.symm (run_singleton rfl) agrees
  | case4 expected start more =>
    have opened : run file state [.start start] = .ok (state.push start) := run_singleton rfl
    have above : (state.push start).frames.length ≤ peak file (state.push start) more :=
      frames_le_peak
    have below : peak file (state.push start) more ≤ peak file state (.start start :: more) :=
      peak_append_le opened
    simp only [State.frames_push, List.length_cons] at above
    simp only [Agrees]
    omega
  | case5 expected start more room fault failed ih =>
    have agrees := ih (state.push start) rfl
    rw [failed] at agrees
    have room' : room + (state.push start).frames.length = room.succ + state.frames.length := by
      simp only [State.frames_push, List.length_cons]
      omega
    rw [room'] at agrees
    exact agrees_of_run List.singleton_append.symm (run_singleton rfl) agrees
  | case6 expected start more room nodes shorter ranOut ih =>
    have agrees := ih (state.push start) rfl
    rw [ranOut] at agrees
    exact ⟨nodes, state.level, state.frames, agrees⟩
  | case7 expected start more room body stop rest shorter matched fault failed inside after =>
    have agrees := inside (state.push start) rfl
    rw [matched] at agrees
    obtain ⟨same, inner, rfl, ran⟩ := agrees
    have whole : Chunk.start start :: (inner ++ .stop stop :: rest) =
        (.start start :: (inner ++ [.stop stop])) ++ rest := by simp
    have block := run_block (Option.some.inj same).symm ran
    have agrees := after (state.add [.block ⟨start, stop.raw⟩ body]) innermost
    rw [failed] at agrees
    exact agrees_of_run whole block agrees
  | case8 expected start more room body stop rest shorter matched siblings more' inside after =>
    have agrees := inside (state.push start) rfl
    rw [matched] at agrees
    obtain ⟨same, inner, rfl, ran⟩ := agrees
    have whole : Chunk.start start :: (inner ++ .stop stop :: rest) =
        (.start start :: (inner ++ [.stop stop])) ++ rest := by simp
    have block := run_block (Option.some.inj same).symm ran
    have agrees := after (state.add [.block ⟨start, stop.raw⟩ body]) innermost
    rw [more'] at agrees
    exact agrees_push whole block agrees
  | case9 room stop more => exact ⟨innermost, [], rfl, congrArg Except.ok (State.add_nil state).symm⟩
  | case10 room expected stop more other =>
    rw [← innermost] at other
    simp only [Agrees, run, step_stop_of_other other]

end Matching

section Grammar
variable {file : String} {state next : State} {chunks more : List Chunk} {nodes others : List Node}

theorem Spells.append (first : Spells chunks nodes) (second : Spells more others) :
    Spells (chunks ++ more) (nodes ++ others) := by
  induction first with
  | nil => exact second
  | text _ ih => exact .text ih
  | block same inside _ _ ih =>
    rw [List.cons_append, List.append_assoc, List.cons_append]
    exact .block same inside ih

/-- A block of a forest is spelled by its two markers, with what stands inside and
around it spelled between and around them. -/
theorem Spells.split {before after body : List Node} {block : Block} (spells : Spells chunks nodes)
    (whole : nodes = before ++ .block block body :: after) :
    ∃ first inner stop last, chunks = first ++ .start block.start :: (inner ++ .stop stop :: last) ∧
      stop.name = block.start.name ∧ stop.raw = block.footer ∧
      Spells first before ∧ Spells inner body ∧ Spells last after := by
  induction spells generalizing before with
  | nil => simp at whole
  | @text content loc more nodes _ ih =>
    cases before with
    | nil => cases whole
    | cons node before =>
      obtain ⟨rfl, rest⟩ := List.cons.inj whole
      obtain ⟨first, inner, stop, last, rfl, same, footer, front, inside, back⟩ := ih rest
      exact ⟨.text content loc :: first, inner, stop, last, rfl, same, footer, .text front, inside, back⟩
  | @block start stop inner more body' nodes same inside later _ ih =>
    cases before with
    | nil =>
      cases whole
      exact ⟨[], inner, stop, more, rfl, same, rfl, .nil, inside, later⟩
    | cons node before =>
      obtain ⟨rfl, rest⟩ := List.cons.inj whole
      obtain ⟨first, inner', stop', last, rfl, same', footer, front, inside', back⟩ := ih rest
      refine ⟨.start start :: (inner ++ .stop stop :: first), inner', stop', last, by simp, same', footer, ?_,
        inside', back⟩
      exact .block same inside front

/-- The machine reads what chunks spell, whatever is open around them. -/
theorem run_of_spells (spells : Spells chunks nodes) (state : State) :
    run file state chunks = .ok (state.add nodes) := by
  induction spells generalizing state with
  | nil => exact congrArg Except.ok (State.add_nil state).symm
  | @text content loc more nodes _ ih =>
    have first : run file state [.text content loc] = .ok (state.add [.text content]) :=
      run_singleton rfl
    rw [← List.singleton_append, run_append first, ih, State.add_add]
    rfl
  | @block start stop inner more body nodes same _ _ inside after =>
    have first : run file state (.start start :: (inner ++ [.stop stop])) =
        .ok (state.add [.block ⟨start, stop.raw⟩ body]) := run_block same (inside (state.push start))
    rw [List.append_cons, ← List.cons_append, run_append first, after, State.add_add]
    rfl

theorem Leads.add (leads : Leads chunks state) (spells : Spells more nodes) :
    Leads (chunks ++ more) (state.add nodes) := by
  cases leads with
  | outside before => exact .outside (before.append spells)
  | inside outer before =>
    rw [List.append_assoc, List.cons_append]
    exact .inside outer (before.append spells)

theorem Leads.step {chunk : Chunk} (leads : Leads chunks state)
    (stepped : Bracket.step file state chunk = .ok next) : Leads (chunks ++ [chunk]) next := by
  cases chunk with
  | text content loc =>
    cases stepped
    exact leads.add (.text .nil)
  | start start =>
    cases stepped
    exact .inside leads .nil
  | stop stop =>
    cases leads with
    | outside before => cases stepped
    | @inside outer inner start before level frames leads body =>
      simp only [Bracket.step] at stepped
      split at stepped
      · rename_i same
        cases stepped
        have block := leads.add (Spells.block same body .nil)
        simpa [State.add] using block
      · cases stepped

theorem Leads.run (leads : Leads chunks state) (ran : Bracket.run file state more = .ok next) :
    Leads (chunks ++ more) next := by
  induction more generalizing chunks state with
  | nil =>
    cases ran
    rwa [List.append_nil]
  | cons chunk more ih =>
    simp only [Bracket.run] at ran
    cases stepped : Bracket.step file state chunk with
    | error fault => simp [stepped] at ran
    | ok reached =>
      simp only [stepped] at ran
      rw [List.append_cons]
      exact ih (leads.step stepped) ran

theorem spells_of_run (ran : run file .initial chunks = .ok ⟨nodes, []⟩) : Spells chunks nodes := by
  have leads : Leads chunks ⟨nodes, []⟩ := (Leads.outside .nil).run ran
  cases leads with
  | outside spells => exact spells

/-- The machine accepts exactly the chunks that spell a forest. -/
theorem read_eq_ok_iff : read file chunks = .ok nodes ↔ Spells chunks nodes := by
  constructor
  · intro accepted
    unfold read at accepted
    cases ran : run file .initial chunks with
    | error fault => simp [ran] at accepted
    | ok reached =>
      obtain ⟨level, frames⟩ := reached
      simp only [ran] at accepted
      cases frames with
      | nil =>
        cases accepted
        exact spells_of_run ran
      | cons frame frames => cases accepted
  · intro spells
    simp [read, run_of_spells spells, finish, State.add, State.initial]

theorem spells_of_matchBlocks {room : Nat} {siblings : Siblings chunks.length}
    (matched : matchBlocks room none chunks = .ok siblings) : Spells chunks siblings.nodes := by
  have agrees := matchBlocks_agrees "" room none chunks .initial rfl
  obtain ⟨nodes, ended, shorter⟩ := siblings
  rw [matched] at agrees
  cases ended with
  | none => exact spells_of_run agrees
  | some found => cases agrees.1

end Grammar

/-- Where no more blocks are open at a time than may be, chunks are matched as
the machine reads them. -/
theorem ofChunks_of_shallow {limit : Nat} {file : String} {chunks : List Chunk}
    (shallow : peak file .initial chunks ≤ limit) :
    Document.ofChunks limit file chunks =
      match read file chunks with
      | .ok nodes => .ok ⟨file, nodes⟩
      | .error fault => .error (.fault fault) := by
  have agrees := matchBlocks_agrees file limit none chunks .initial rfl
  unfold Document.ofChunks read
  cases matched : matchBlocks limit none chunks with
  | ok siblings =>
    obtain ⟨nodes, ended, shorter⟩ := siblings
    rw [matched] at agrees
    cases ended with
    | none =>
      simp only [Agrees] at agrees
      rw [agrees]
      rfl
    | some found => cases agrees.1
  | error fault =>
    rw [matched] at agrees
    cases fault with
    | tooDeep => exact absurd agrees (Nat.not_lt_of_le shallow)
    | unopened stop =>
      simp only [Agrees] at agrees
      simp [agrees, MatchFault.toFault, unopened]
    | unclosed start =>
      obtain ⟨level, before, frames, ran⟩ := agrees
      simp [ran, finish, MatchFault.toFault, unclosed]

/-- Up to the limit, the forest of a list of chunks is what the machine reads,
fault for fault. It is a forest exactly when starts and stops pair up, and a stop
that does not name the innermost open block is at fault, whatever blocks are open
around that one. -/
theorem ofChunks_eq_read (limit : Nat) (file : String) (chunks : List Chunk)
    (shallow : peak file .initial chunks ≤ limit) :
    (Document.ofChunks limit file chunks =
      match read file chunks with
      | .ok nodes => .ok ⟨file, nodes⟩
      | .error fault => .error (.fault fault)) ∧
    (∀ document, Document.ofChunks limit file chunks = .ok document ↔
      document.file = file ∧ Spells chunks document.nodes) ∧
    (∀ before stop after state frame frames, chunks = before ++ .stop stop :: after →
      run file .initial before = .ok state → state.frames = frame :: frames →
      stop.name ≠ frame.start.name →
      Document.ofChunks limit file chunks = .error (.fault (unopened file stop))) := by
  have same := ofChunks_of_shallow shallow
  refine ⟨same, ?_, ?_⟩
  · intro document
    rw [same, ← @read_eq_ok_iff file]
    cases read file chunks with
    | error fault => simp
    | ok nodes =>
      obtain ⟨name, forest⟩ := document
      simp [eq_comm]
  · rintro before stop after state frame frames rfl ran inside different
    have other : state.innermost? ≠ some stop.name := by
      simpa [State.innermost?, inside] using Ne.symm different
    rw [same, read, run_append ran, run, step_stop_of_other other]

def outerStart : Start := ⟨⟨"rdmx", "outer"⟩, [], "<!-- rdmx :outer -->".toList, ⟨1, 11⟩⟩

def innerStart : Start := ⟨⟨"rdmx", "inner"⟩, [], "<!-- rdmx :inner -->".toList, ⟨1, 31⟩⟩

def outerStop : Stop := ⟨⟨"rdmx", "outer"⟩, "<!-- rdmx /:outer -->".toList, ⟨1, 51⟩⟩

/-- The end of the outer block does not close it while the inner one is open. -/
theorem ofChunks_crossed :
    peak "doc" .initial [.start outerStart, .start innerStart, .stop outerStop] ≤ 2 ∧
      Document.ofChunks 2 "doc" [.start outerStart, .start innerStart, .stop outerStop] =
        .error (.fault (unopened "doc" outerStop)) := by
  have shallow : peak "doc" .initial [.start outerStart, .start innerStart, .stop outerStop] ≤ 2 := by
    decide
  have crossed := (ofChunks_eq_read _ _ _ shallow).2.2 [.start outerStart, .start innerStart] outerStop []
  exact ⟨shallow, crossed _ ⟨innerStart, []⟩ [⟨outerStart, []⟩] rfl rfl rfl (by decide)⟩

end Regen.Bracket
