import Scriptlet.Proofs.Evaluation.Relation
import Scriptlet.Proofs.Shape.Agreement
import Scriptlet.Proofs.Shape.Loose
import Scriptlet.Proofs.Shape.Spans

/-!
# What no script leads to

On the outline of a script, an interpreter of outlines does what the interpreter of scripts does,
and is never stuck.
-/

namespace Scriptlet

open Outline

section Reading

variable {α : Type}

mutual

/-- The outline of a word is read back as the word. -/
lemma Word.outline_word? : (word : Word α) → word.outline.word? = some word
  | .literal origin content => rfl
  | .reference origin name => by rw [Word.outline, Outline.word?, Word.outline_word? name]; rfl
  | .substitution origin name args => by
    rw [Word.outline, Outline.word?, Word.outline_word? name, Word.outlines_words? args]
    rfl
  | .vector origin target => by rw [Word.outline, Outline.word?, Word.outline_word? target]; rfl
  | .glued pieces => by rw [Word.outline, Outline.word?, Word.outlines_words? pieces]; rfl

/-- So are the outlines of several. -/
lemma Word.outlines_words? : (words : List (Word α)) → words? (Word.outlines words) = some words
  | [] => rfl
  | word :: words => by
    rw [Word.outlines, words?, Word.outline_word? word, Word.outlines_words? words]
    rfl

end

mutual

/-- The outline of a statement is read back as the statement. -/
lemma Statement.outline_statement? :
    (statement : Statement α) → statement.outline.statement? = some statement
  | .command name args => by
    rw [Statement.outline, ofArguments, Outline.statement?, Word.outline_word?,
      Word.outlines_words?]
    rfl
  | .control origin name args body => by
    rw [Statement.outline, ofArguments, Outline.statement?, Word.outline_word?,
      Word.outlines_words?, Statement.outline_statement? body]
    rfl
  | .block origin body => by
    rw [Statement.outline, Outline.statement?, Statement.outlines_statements? body]
    rfl

/-- So are the outlines of several. -/
lemma Statement.outlines_statements? :
    (body : List (Statement α)) → statements? (Statement.outlines body) = some body
  | [] => rfl
  | statement :: body => by
    rw [Statement.outlines, statements?, Statement.outline_statement? statement,
      Statement.outlines_statements? body]
    rfl

end

/-- A word is no statement. -/
lemma Word.outline_no_statement (word : Word α) : word.outline.statement? = none := by
  cases word <;> rfl

/-- A call that is a statement is found in its outline. -/
lemma Statement.outline_call? (statement : Statement α) :
    statement.outline.call? = some (.statement statement) := by
  rw [Outline.call?, Statement.outline_statement?]

/-- So is a call that is a word. -/
lemma Word.outline_call? (word : Word α) : word.outline.call? = some (.word word) := by
  rw [Outline.call?, Word.outline_no_statement, Word.outline_word?]
  rfl

end Reading

/-- An outline starts where the word starts. -/
lemma Word.outline_start : (word : Word Token) → word.outline.span.start = word.start
  | .literal origin _ | .reference origin _ | .substitution origin _ _ | .vector origin _ =>
    start_of_origin origin
  | .glued [] => start_of_none
  | .glued (piece :: pieces) => by
    have first := Word.outline_start piece
    rw [Word.outline, Word.outlines, Word.start, Word.origin?, Word.firstOrigin?]
    rw [Word.start] at first
    cases carried : piece.origin? with
    | some origin => exact start_of_origin origin
    | none =>
      rw [carried] at first
      exact (start_of_child _).trans first

/-- The outline of a statement starts where the statement does. -/
lemma Statement.outline_start : (statement : Statement Token) →
    statement.outline.span.start = statement.start
  | .control origin _ _ _ | .block origin _ => start_of_origin origin
  | .command name args => by
    have first := Word.outline_start name
    rw [Statement.outline, Statement.start, Statement.origin?]
    rw [Word.start] at first
    cases carried : name.origin? with
    | some origin => exact start_of_origin origin
    | none =>
      rw [carried] at first
      exact (start_of_child _).trans first

/-- The outline of a script starts where the script does. -/
lemma Node.script_start (body : List (Statement Token)) :
    (Node.script body).outline.span.start = (Node.script body).start := by
  cases body with
  | nil => exact start_of_none
  | cons statement body => exact (start_of_child _).trans (Statement.outline_start statement)

/-- The outline is that of a call as it stands in a script. -/
structure CallSite.Shows (site : CallSite) (tree : Outline Token) : Prop where
  call : tree.call? = some site.node
  body : tree.body? = site.body.map Statement.outline
  children : tree.children = [site.name.outline, .ofArguments site.args] ∨
    ∃ body, tree.children = [site.name.outline, .ofArguments site.args, body]
  start : tree.span.start = site.location
  placed : site.kind = .control → site.body.isSome

section Words

variable {σ : Type} {expand : Expand σ} {expandTree : Outline Token → Evaluation σ String}

/-- Expansion calls are evaluated alike. -/
def Expand.Agrees (expand : Expand σ) (expandTree : Outline Token → Evaluation σ String) : Prop :=
  ∀ origin name args,
    expandTree (Word.substitution origin name args).outline = expand origin name args

variable (stuck : Stuck σ)

mutual

/-- The outline of a word has the value of the word. -/
lemma Word.outline_evaluate (same : expand.Agrees expandTree) : (word : Word Token) →
    word.outline.evaluate stuck expandTree = word.evaluate expand
  | .literal origin content => rfl
  | .reference origin name => by
    rw [Word.outline, Outline.evaluate, Word.evaluate, Word.outline_evaluate same name]
    refine congrArg _ (funext fun name => congrArg _ (funext fun context => ?_))
    cases context.get? name with
    | some value => rfl
    | none => exact congrArg (fun start => Evaluation.failAt start _) (start_of_origin origin)
  | .substitution origin name args => by
    rw [Word.evaluate, ← same]
    rfl
  | .vector origin target => by
    rw [Word.outline, Outline.evaluate, Word.evaluate, Word.outline_evaluate same target]
  | .glued pieces => by
    rw [Word.outline, Outline.evaluate, Word.evaluate, Word.outlines_evaluate same pieces]

/-- So have the outlines of several. -/
lemma Word.outlines_evaluate (same : expand.Agrees expandTree) : (words : List (Word Token)) →
    Outline.evaluateAll stuck expandTree (Word.outlines words) = Word.evaluateAll expand words
  | [] => rfl
  | word :: words => by
    rw [Word.outlines, Outline.evaluateAll, Word.evaluateAll, Word.outline_evaluate same word,
      Word.outlines_evaluate same words]

end

/-- The outline of a word has the slots of the word. -/
lemma Word.outline_slots (same : expand.Agrees expandTree) (word : Word Token) :
    word.outline.slots stuck expandTree = word.slots expand := by
  rw [Outline.slots, Word.slots, Word.outline_evaluate stuck same]
  cases word <;> rfl

/-- The outlines of words are the same arguments. -/
lemma Word.outlines_arguments (same : expand.Agrees expandTree) (words : List (Word Token)) :
    Outline.arguments stuck expandTree (Word.outlines words) = Word.arguments expand words := by
  induction words with
  | nil => rfl
  | cons word words ih =>
    rw [Word.outlines, Outline.arguments, Word.arguments, Word.outline_slots stuck same, ih]

end Words

namespace Interpreter

variable {σ : Type} {it it' : Interpreter σ} {stuck : Stuck σ}
  {run : Node Token → Evaluation σ Unit} {runTree : Outline Token → Evaluation σ Unit}
  {expand : Expand σ}
  {expandTree : Outline Token → Evaluation σ String} {rounds : Nat}

/-- A slice that starts inside is there. -/
lemma sliceFrom?_eq {α : Type} {start : Nat} {items : List α} (inside : start ≤ items.length) :
    sliceFrom? start items = some (items.drop start) :=
  if_pos inside

/-- The arguments of a definition reach as far as its parameters. -/
lemma bindParams?_eq {definition : Definition} {args : List String}
    (fits : arityFault? definition args.length = none) (s : ScopeStack) :
    bindParams? definition args s = some (bindParams definition args s) := by
  rw [bindParams?, bindParams]
  rw [arityFault?] at fits
  cases collects : definition.collector with
  | none => rfl
  | some collector =>
    rw [collects] at fits
    dsimp only at fits ⊢
    split at fits
    · rw [sliceFrom?_eq ‹_›]
      rfl
    · cases fits

/-- A definition runs alike if its body does. -/
lemma runDefinitionTree_eq (runs : ∀ s, runTree (Statement.outline s) = run (.statement s))
    (definition : Definition) (args : List String) :
    runDefinitionTree stuck runTree definition args = runDefinition run definition args := by
  rw [runDefinitionTree, runDefinition]
  cases fits : arityFault? definition args.length with
  | some fault => rfl
  | none =>
    dsimp only
    rw [runs]
    funext s
    rw [Evaluation.bind_of_ok (show Evaluation.context s = some (.ok s.context, s) from rfl),
      bindParams?_eq fits]
    rfl

variable {site : CallSite} {tree : Outline Token}

/-- Arguments are read again alike. -/
lemma reread_eq (shows : site.Shows tree) (expands : expand.Agrees expandTree) :
    tree.reread stuck expandTree = Word.arguments expand site.args := by
  have second : tree.children[1]? = some (.ofArguments site.args) := by
    obtain same | ⟨body, same⟩ := shows.children
    all_goals
      rw [same]
      rfl
  rw [Outline.reread, second]
  exact Word.outlines_arguments stuck expands site.args

/-- Handlers that agree serve a call alike. -/
lemma handleTree_eq (agrees : it.Agrees it') (shows : site.Shows tree)
    (runs : ∀ s, runTree (Statement.outline s) = run (.statement s))
    (expands : expand.Agrees expandTree) {call : ActiveCall} (kind : call.kind = site.kind)
    {handler handler' : Handler σ} (serves : handler.Agrees site.kind handler') :
    it'.handleTree stuck runTree expandTree rounds tree call handler' =
      it.handle run expand rounds site call handler := by
  have bodies : runBodyTree runTree tree call.name = runBody run site call.name := by
    rw [runBodyTree, runBody, shows.body]
    cases site.body with
    | none => rfl
    | some body => exact runs body
  have shown : tree.body?.bind Outline.statement? = site.body := by
    rw [shows.body]
    cases site.body with
    | none => rfl
    | some body => exact body.outline_statement?
  have invokes := serves.invoke ⟨call, site.node, site.body⟩ kind shows.placed
  rw [handleTree, shows.call, handle, ← agrees.observe, bodies, reread_eq shows expands, shown,
    invokes]

/-- A call is dispatched alike. -/
lemma dispatchTree_eq (agrees : it.Agrees it') (shows : site.Shows tree)
    (runs : ∀ s, runTree (Statement.outline s) = run (.statement s))
    (expands : expand.Agrees expandTree) {call : ActiveCall} (kind : call.kind = site.kind)
    (definition : Option Definition) :
    it'.dispatchTree stuck runTree expandTree rounds tree definition call =
      it.dispatch run expand rounds site definition call := by
  cases definition with
  | some definition => rw [dispatchTree, dispatch, agrees.observe, runDefinitionTree_eq runs]
  | none =>
    rw [dispatchTree, dispatch]
    have found := (agrees.chains call.kind).handlerFor? call.name
    revert found
    generalize Chain.handlerFor? (it.registry.chain call.kind) call.name = handler
    generalize Chain.handlerFor? (it'.registry.chain call.kind) call.name = handler'
    intro found
    cases found with
    | none => rfl
    | some serves => exact handleTree_eq agrees shows runs expands kind (kind ▸ serves)

/-- A call is served alike once its name and arguments are known. -/
lemma serveTree_eq (agrees : it.Agrees it') (shows : site.Shows tree)
    (runs : ∀ s, runTree (Statement.outline s) = run (.statement s))
    (expands : expand.Agrees expandTree) (name : String) (args : List String) :
    it'.serveTree stuck runTree expandTree rounds site.kind tree name args =
      it.serve run expand rounds site name args := by
  rw [serveTree, serve, shows.start, agrees.limits]
  simp only [dispatchTree_eq agrees shows runs expands]

/-- So is a call with its name and arguments. -/
lemma callTree_eq (stuck : Stuck σ) (rounds : Nat) (agrees : it.Agrees it')
    (shows : site.Shows tree) (runs : ∀ s, runTree (Statement.outline s) = run (.statement s))
    (expands : expand.Agrees expandTree) :
    it'.callTree stuck runTree expandTree rounds site.kind tree =
      it.call run expand rounds site := by
  rw [callTree, call]
  obtain same | ⟨body, same⟩ := shows.children
  all_goals
    rw [same]
    dsimp only
    rw [Word.outline_slots stuck expands, show (Outline.ofArguments site.args).children =
      Word.outlines site.args from rfl, Word.outlines_arguments stuck expands]
    simp only [serveTree_eq agrees shows runs expands]

/-- Statements in turn run alike if each does. -/
lemma sequenceTrees_eq (runs : ∀ s, runTree (Statement.outline s) = run (.statement s))
    (body : List (Statement Token)) :
    sequenceTrees runTree (Statement.outlines body) =
      sequence (fun s => run (.statement s)) body := by
  induction body with
  | nil => rfl
  | cons statement body ih => rw [Statement.outlines, sequenceTrees, sequence, runs, ih]

/-- The outline of a command is that of its call. -/
lemma command_shows (name : Word Token) (args : List (Word Token)) :
    CallSite.Shows ⟨.command, name, args, none, .statement (.command name args),
      (Statement.command name args).start⟩ (Statement.command name args).outline where
  call := Statement.outline_call? _
  body := rfl
  children := .inl rfl
  start := Statement.outline_start _
  placed := nofun

/-- So is the outline of a control call. -/
lemma control_shows (origin : Token) (name : Word Token) (args : List (Word Token))
    (body : Statement Token) :
    CallSite.Shows ⟨.control, name, args, some body, .statement (.control origin name args body),
      (Statement.control origin name args body).start⟩
      (Statement.control origin name args body).outline where
  call := Statement.outline_call? _
  body := rfl
  children := .inr ⟨_, rfl⟩
  start := Statement.outline_start _
  placed := fun _ => rfl

/-- So is the outline of a substitution. -/
lemma substitution_shows (origin : Token) (name : Word Token) (args : List (Word Token)) :
    CallSite.Shows ⟨.expansion, name, args, none, .word (.substitution origin name args),
      origin.start⟩ (Word.substitution origin name args).outline where
  call := Word.outline_call? _
  body := rfl
  children := .inl rfl
  start := Word.outline_start _
  placed := nofun

/-- The outline of a script or of a statement is run as the script or the statement is. -/
def Node.runs : Node Token → Bool
  | .script _ | .statement _ => true
  | .arguments _ | .word _ => false

/-- A script or a statement is performed alike. -/
lemma performTree_eq (agrees : it.Agrees it')
    (runs : ∀ s, runTree (Statement.outline s) = run (.statement s))
    (expands : expand.Agrees expandTree) {node : Node Token} (runnable : Node.runs node) :
    it'.performTree stuck runTree expandTree rounds node.outline =
      it.perform run expand rounds node := by
  cases node with
  | script body => exact sequenceTrees_eq runs body
  | statement statement =>
    cases statement with
    | block origin body => exact sequenceTrees_eq runs body
    | command name args =>
      have called := callTree_eq stuck rounds agrees (command_shows name args) runs expands
      exact congrArg (· >>= fun _ => pure ()) called
    | control origin name args body =>
      have called :=
        callTree_eq stuck rounds agrees (control_shows origin name args body) runs expands
      exact congrArg (· >>= fun _ => pure ()) called
  | arguments | word => cases runnable

/-- A step is counted alike. -/
lemma step_eq (agrees : it.Agrees it') (location : Location) :
    it'.step location = it.step location := by
  rw [step, step, agrees.limits, agrees.observe]

/-- Running the outline of a script or a statement is running the script or the statement. -/
theorem runTree_eq (agrees : it.Agrees it') (stuck : Stuck σ) (fuel : Nat) :
    (∀ node, Node.runs node → it'.runTree stuck fuel node.outline = it.runNode fuel node) ∧
      Expand.Agrees (it.expand fuel) (it'.expandTree stuck fuel) := by
  induction fuel with
  | zero => exact ⟨fun _ _ => rfl, fun _ _ _ => rfl⟩
  | succ fuel ih =>
    obtain ⟨runs, expands⟩ := ih
    have statements := fun s => runs (.statement s) rfl
    constructor
    · intro node runnable
      have start : node.outline.span.start = node.start := by
        cases node with
        | script body => exact Node.script_start body
        | statement s => exact s.outline_start
        | arguments | word => cases runnable
      rw [runTree, runNode, step_eq agrees, start,
        performTree_eq agrees statements expands runnable]
    · intro origin name args
      rw [expandTree, expand, step_eq agrees, Word.outline_start]
      have called :=
        callTree_eq stuck fuel agrees (substitution_shows origin name args) statements expands
      exact congrArg (it.step origin.start >>= fun _ => ·) called

end Interpreter

end Scriptlet
