import Vetting.Artifact.VerdictDocument
import Vetting.Command.Invocation
import Vetting.Command.Response
import Vetting.Host.Probe
import Vetting.Json.Printer
import Vetting.Promotion.Gate
import Vetting.Promotion.RuleSetDocument
import Vetting.Score.PropertyListing
import Vetting.Validation.Evaluation
import Vetting.Validation.Execution

/-! Carrying out what the program is asked to do. The configuration is settled first; only a
promotion changes files, and all other commands only read them. -/

namespace Vetting

/-- What surrounds a run of the program. -/
structure Surroundings where
  /-- The files when the program starts. -/
  tree : FileTree
  environment : String → Option String
  input : Bytes
  now : Timestamp
  /-- Runs a program with its arguments. -/
  execute : String → List String → Execution

/-- The variables that are looked at, besides those by which tools are found. -/
def Surroundings.variables : List String :=
  ["HOME", Configuration.timeoutVariable, Configuration.concurrencyVariable] ++
    ([.config, .draftRoot] : List Parameter).filterMap Parameter.setting?

/-- Whether a path stands for the standard input. -/
def Path.isInput (path : Path) : Bool :=
  Path.trimBack path.bytes.reverse == Path.bytesOf "-"

/-- The paths from which a command reads. -/
def Command.reads : Command → List Path
  | .tools => []
  | .validate _ file => [file]
  | .score _ file _ listing => file :: listing.toList
  | .promote draftRoot outputRoot rules =>
      draftRoot.getD (PromotionGate.defaultDraftRoot outputRoot) :: rules.toList

/-- The paths from which the program reads when it is asked to do something. -/
def Invocation.reads (invocation : Invocation) : List Path :=
  invocation.configuration.getD (Path.ofString Configuration.defaultFile) ::
    invocation.command.reads

/-- Why a command cannot be carried out. -/
inductive CommandFault where
  | configuration (fault : ConfigurationFault)
  /-- The configuration is wrong once the flags are taken in. -/
  | flags (fault : ConfigurationFault)
  | artifact (path : Path) (fault : FileFault)
  | input (fault : FileFault)
  | listing (path : Path) (fault : FileFault)
  | rules (path : Path) (fault : RuleSet.LoadFault)
  | report (fault : PromotionFault)
  deriving Repr

/-- The wording of a fault, with what caused it. -/
def CommandFault.message : CommandFault → String
  | configuration fault => "Failed to load configuration: " ++ fault.trace
  | flags fault => "Invalid configuration: " ++ fault.trace
  | artifact path fault => "Failed to read " ++ path.text ++ ": " ++ fault.message
  | input fault => "Failed to read artifact from stdin: " ++ fault.message
  | listing path fault => "Failed to read property listing " ++ path.text ++ ": " ++ fault.message
  | rules path fault => "Failed to load rules from " ++ path.text ++ ": " ++ fault.trace
  | report fault => "Failed to write promotion report: " ++ fault.trace

namespace Surroundings

/-- The home directory. -/
def home (s : Surroundings) : Option Path :=
  (s.environment "HOME").map Path.ofString

/-- The configuration with all its layers. -/
def configuration (s : Surroundings) (invocation : Invocation) :
    Except CommandFault Configuration := do
  let loaded ← (Configuration.load s.tree s.home invocation.configuration s.environment).mapError
    .configuration
  (loaded.override invocation.flags).check.mapError .flags

/-- The directory for sources and results. -/
def scratch (s : Surroundings) : Path :=
  Path.ofString ((s.environment "TMPDIR").getD "/tmp")

/-- Whether there is room for sources and results. -/
def hasScratch (s : Surroundings) : Bool :=
  s.scratch.isEmpty || s.tree.isDirectory s.scratch

/-- Where tools are looked for. -/
def places (s : Surroundings) (c : Configuration) : SearchPlaces :=
  ⟨(s.environment "PATH").map Path.bytesOf, c.jarPaths⟩

/-- Where the tools are. -/
def tools (s : Surroundings) (c : Configuration) : Toolbox :=
  fun tool => ((s.places c).find s.tree tool).map Path.text

/-- What becomes of a run of a checker's program. -/
def runTool (s : Surroundings) (c : Configuration) (checker : Checker) (program : Program) :
    ToolOutcome :=
  if s.hasScratch then
    let source := (s.scratch.join (Path.bytesOf ("source" ++ checker.suffix))).text
    let results := (s.scratch.join (Path.bytesOf "results")).text
    (s.execute program.path (checker.arguments program source results)).outcome
      (1000 * c.effectiveTimeout) program
  else .noSource FileFault.missing.message

/-- The validator of a configuration. -/
def validator (s : Surroundings) (c : Configuration) : Validator Float :=
  { Validator.withoutTools c.thresholds with
    tools := s.tools c
    run := fun checker program _ => s.runTool c checker program }

/-- The text of an artifact. -/
def readArtifact (s : Surroundings) (path : Path) : Except CommandFault (List Char) :=
  if path.isInput then
    match Text.decode? s.input with
    | some text => .ok text
    | none => .error (.input .notText)
  else (s.tree.readText path).mapError (.artifact path)

/-- The names that an artifact is expected to mention, if there is an expectation. -/
def expectedNames (s : Surroundings) (given : List String) (listing : Option Path) :
    Except CommandFault (Option (List String)) :=
  match listing with
  | none => .ok (PropertyListing.expected? given none)
  | some path => do
      let text ← (s.tree.readText path).mapError (.listing path)
      return PropertyListing.expected? given (some text)

/-- The response that shows a document. -/
def showing (ok : Bool) (doc : Json) : Response :=
  ⟨.ofJudgement ok, doc.pretty ++ "\n", ""⟩

/-- Validates an artifact. -/
def validate (s : Surroundings) (c : Configuration) (kind : ArtifactKind) (file : Path) :
    Except CommandFault Response := do
  let (verdict, _) := (s.validator c).validate kind (← s.readArtifact file)
  return showing verdict.ok verdict.toJson

/-- The document of an evaluation against a threshold. -/
def evaluationDocument (e : Evaluation Float) (threshold : Float) (accepted : Bool) : Json :=
  .obj [("artifact_type", .str e.kind.tag), ("validation", e.validation.toJson),
    ("breakdown", .obj [("structural", .real e.breakdown.structural),
      ("syntax", .real e.breakdown.syntactic), ("coverage", .real e.breakdown.coverage),
      ("blended", .real e.breakdown.blended)]),
    ("threshold", .real threshold), ("accepted", .bool accepted)]

/-- Scores an artifact, which is accepted when its blended score reaches the threshold. -/
def score (s : Surroundings) (c : Configuration) (kind : ArtifactKind) (file : Path)
    (given : List String) (listing : Option Path) : Except CommandFault Response := do
  let content ← s.readArtifact file
  let expected ← s.expectedNames given listing
  let (evaluation, _) := (s.validator c).evaluate ⟨kind, content, expected.getD []⟩
  let threshold := c.thresholds kind
  let accepted := Scale.atMost threshold evaluation.breakdown.blended
  return showing accepted (evaluationDocument evaluation threshold accepted)

/-- The gate of a promotion. -/
def gate (s : Surroundings) (draftRoot : Option Path) (outputRoot : Path)
    (rules : Option Path) : Except CommandFault PromotionGate := do
  let base := (PromotionGate.ofOutputRoot outputRoot).withSetting draftRoot
  match rules with
  | none => return base
  | some path =>
      return { base with rules := ← (RuleSet.load s.tree path).mapError (.rules path) }

/-- The response to a promotion. -/
def promoted (outcome : PromotionGate.Outcome) : Response :=
  match outcome.report with
  | .ok report => showing report.ok report.toJson
  | .error fault => .failure (CommandFault.report fault).message

/-- Promotes a draft. -/
def promote (s : Surroundings) (gate : PromotionGate) : FileProgram Response := do
  return promoted (← gate.program s.now (gate.inspect s.tree))

/-- The response of a command that changes no files. -/
def answer : Except CommandFault Response → FileProgram Response
  | .ok response => return response
  | .error fault => return .failure fault.message

/-- Carries out a command under a configuration. -/
def carryOut (s : Surroundings) (c : Configuration) : Command → FileProgram Response
  | .tools =>
      return ⟨.accepted, Availability.table (availabilityReport (s.tools c)), ""⟩
  | .validate kind file => answer (s.validate c kind file)
  | .score kind file given listing => answer (s.score c kind file given listing)
  | .promote draftRoot outputRoot rules =>
      match s.gate draftRoot outputRoot rules with
      | .ok gate => s.promote gate
      | .error fault => answer (.error fault)

/-- Runs the program on the words of a command line. -/
def program (s : Surroundings) (words : List String) : FileProgram Response :=
  match Invocation.ofWords s.environment words with
  | .error stop => return .ofStop stop
  | .ok invocation =>
      match s.configuration invocation with
      | .ok c => s.carryOut c invocation.command
      | .error fault => answer (.error fault)

end Surroundings

end Vetting
