import TreeProtocol.Attrs
import TreeProtocol.Cardinality

/-!
# Faults

Everything that can go wrong while trees are built, checked, loaded or walked. A `Fault` says what
went wrong; a `BuildError` adds where: the input range of the node at fault, and the input itself
if the caller attached it. The wording of all faults is in `Fault.message` and `Fault.help?`.
-/

namespace TreeProtocol

/-- What sort of node something is, `literal` or `operator` say. -/
abbrev Kind := String

/-- The classes of faults. -/
inductive FaultClass where
  | unknownKind
  | invalidAttrs
  | cardinality
  | duplicateKey
  | kindMismatch
  | unknownRelation
  | unknownNode
  | invalidState
  | visit
  | config
  | internal
  deriving DecidableEq, Inhabited

/-- The name of a class of faults. -/
def FaultClass.name : FaultClass → String
  | .unknownKind => "UnknownKind"
  | .invalidAttrs => "InvalidInitargs"
  | .cardinality => "Cardinality"
  | .duplicateKey => "DuplicateKey"
  | .kindMismatch => "KindMismatch"
  | .unknownRelation => "UnknownRelation"
  | .unknownNode => "UnknownNode"
  | .invalidState => "InvalidState"
  | .visit => "Visit"
  | .config => "Config"
  | .internal => "Internal"

/-- All classes of faults. -/
def FaultClass.all : List FaultClass :=
  [.unknownKind, .invalidAttrs, .cardinality, .duplicateKey, .kindMismatch, .unknownRelation,
    .unknownNode, .invalidState, .visit, .config, .internal]

/-- The class of a name. -/
def FaultClass.ofName? (name : String) : Option FaultClass := all.find? (·.name == name)

theorem FaultClass.ofName?_name (cls : FaultClass) : ofName? cls.name = some cls := by
  cases cls <;> decide +kernel

/-- What opens the full text of a fault of a class. -/
def FaultClass.heading : FaultClass → String
  | .unknownKind => "Unknown kind"
  | .invalidAttrs => "Invalid initargs"
  | .cardinality => "Cardinality violation"
  | .duplicateKey => "Duplicate key"
  | .kindMismatch => "Kind mismatch"
  | .unknownRelation => "Unknown relation"
  | .unknownNode => "Unknown node"
  | .invalidState => "Invalid state"
  | .visit => "Visit failed"
  | .config => "Configuration error"
  | .internal => "Internal error"

/-- What went wrong. -/
inductive Fault where
  /-- A schema does not know the kind. -/
  | unregisteredKind (kind : Kind) (known : List Kind)
  /-- The value under the bounds keyword is no ordered range. -/
  | malformedBounds (kind : Kind) (value : Value)
  /-- A keyword that the kind requires is missing. -/
  | missingAttr (kind : Kind) (keyword : String)
  /-- A keyword that the kind does not accept. -/
  | unacceptedAttr (kind : Kind) (keyword : String) (accepted : List String)
  /-- The kind has no relation of this name. -/
  | undeclaredRelation (kind : Kind) (relation : String)
  /-- The kind declares the relation with another cardinality. -/
  | otherwiseDeclared (kind : Kind) (relation : Relation) (declared : Cardinality)
  /-- The node was finished without a relation that its kind must have. -/
  | unfilledRelation (kind : Kind) (relation : String)
  /-- A relation for one right node has one already. -/
  | alreadyFilled (relation : Relation)
  /-- The relation attributes lack the key of a keyed relation. -/
  | keyMissing (relation : Relation) (key : String)
  /-- The key of a keyed relation is taken. -/
  | keyTaken (relation key : String) (value : Value)
  /-- A relation was established with one cardinality and used with another. -/
  | otherwiseEstablished (relation : Relation) (established : Cardinality)
  /-- A plan supplies the wrong number of right nodes. -/
  | wrongSupply (relation : Relation) (count : Nat)
  /-- An inspector reports too many right nodes. -/
  | tooManyReported (relation : Relation) (count : Nat)
  /-- An arena has no node of this number. -/
  | strangeNode (node : Nat)
  /-- A relation from a node of an arena that is finished. -/
  | relatedAfterFinish (relation : String) (kind : Kind) (node : Nat)
  /-- A node of an arena was finished twice. -/
  | finishedTwice (kind : Kind) (node : Nat)
  /-- A node of an arena was finished as another kind than its own. -/
  | finishedAsOtherKind (own : Kind) (node : Nat) (asked : Kind)
  /-- A tree was finished as another kind than its own. -/
  | treeFinishedAsOtherKind (own asked : Kind)
  /-- A node of an arena has nothing attached under the relation. -/
  | unestablishedRelation (kind : Kind) (node : Nat) (relation : String)
  /-- A tree has nothing attached under the relation. -/
  | treeLacksRelation (kind : Kind) (relation : String)
  /-- A session was closed although none was open. -/
  | noOpenSession
  /-- A session was completed while nodes that it made were unfinished. -/
  | leftUnfinished (count : Nat)
  /-- As many right nodes as relation attributes were expected. -/
  | unequalParts (nodes args : Nat)
  /-- A text that names no cardinality. -/
  | unreadableCardinality (text : String)
  /-- A kind was to be registered a second time. -/
  | alreadyRegistered (kind : Kind)
  /-- The name of a schema file does not tell its format. -/
  | unknownFormat (path : String)
  | invalidYaml
  | invalidJson
  | unreadableFile
  /-- An error of the code that uses the library, taken over as a fault of visiting. -/
  | raised (text : String)
  /-- A fault reported by the code that uses the library. -/
  | reported (cls : FaultClass) (message : String) (help : Option String)
  deriving Inhabited

namespace Fault

/-- The class of a fault. -/
def cls : Fault → FaultClass
  | .unregisteredKind .. => .unknownKind
  | .malformedBounds .. | .missingAttr .. | .unacceptedAttr .. | .keyMissing .. => .invalidAttrs
  | .otherwiseDeclared .. | .unfilledRelation .. | .alreadyFilled .. | .otherwiseEstablished ..
  | .wrongSupply .. | .tooManyReported .. => .cardinality
  | .keyTaken .. => .duplicateKey
  | .finishedAsOtherKind .. | .treeFinishedAsOtherKind .. => .kindMismatch
  | .undeclaredRelation .. | .unestablishedRelation .. | .treeLacksRelation .. => .unknownRelation
  | .strangeNode _ => .unknownNode
  | .relatedAfterFinish .. | .finishedTwice .. | .noOpenSession | .leftUnfinished _ => .invalidState
  | .unequalParts .. => .internal
  | .unreadableCardinality _ | .alreadyRegistered _ | .unknownFormat _ | .invalidYaml
  | .invalidJson | .unreadableFile => .config
  | .raised _ => .visit
  | .reported cls _ _ => cls

/-- A name between single quotation marks. -/
def named (name : String) : String := "'" ++ name ++ "'"

/-- The handle of a node of an arena, as text. -/
def handleText (node : Nat) : String := "#" ++ toString node

/-- The message of a fault. -/
def message : Fault → String
  | .unregisteredKind kind _ => named kind ++ " is not a registered kind"
  | .malformedBounds kind value => named kind ++ " node has malformed bounds " ++ value.display
  | .missingAttr kind keyword =>
    named kind ++ " node is missing required initarg " ++ named keyword
  | .unacceptedAttr kind keyword _ =>
    named kind ++ " node does not accept initarg " ++ named keyword
  | .undeclaredRelation kind relation => named kind ++ " nodes have no relation " ++ named relation
  | .otherwiseDeclared kind relation declared =>
    "relation " ++ named relation.name ++ " of " ++ named kind ++ " is declared " ++ declared.text
      ++ " but was established as " ++ relation.cardinality.text
  | .unfilledRelation kind relation =>
    named kind ++ " node was finished without its " ++ named relation ++ " relation"
  | .alreadyFilled relation =>
    "relation " ++ named relation.name ++ " is " ++ relation.cardinality.text
      ++ " but already has a right node"
  | .keyMissing relation key =>
    "relation " ++ named relation.name ++ " is " ++ relation.cardinality.text
      ++ " but the relation args lack " ++ named key
  | .keyTaken relation key value =>
    "relation " ++ named relation ++ " already has a right node with " ++ key ++ " = "
      ++ value.display
  | .otherwiseEstablished relation established =>
    "relation " ++ named relation.name ++ " was established as " ++ established.text
      ++ " and cannot be reused as " ++ relation.cardinality.text
  | .wrongSupply relation count =>
    "relation " ++ named relation.name ++ " is " ++ relation.cardinality.text ++ " but "
      ++ toString count ++ " right nodes were supplied"
  | .tooManyReported relation count =>
    "relation " ++ named relation.name ++ " is " ++ relation.cardinality.text
      ++ " but introspection reported " ++ toString count ++ " right nodes"
  | .strangeNode node => "node " ++ handleText node ++ " does not belong to this arena"
  | .relatedAfterFinish relation kind node =>
    "cannot relate " ++ named relation ++ " from finished " ++ named kind ++ " node "
      ++ handleText node
  | .finishedTwice kind node => named kind ++ " node " ++ handleText node ++ " is already finished"
  | .finishedAsOtherKind own node asked =>
    "cannot finish " ++ named own ++ " node " ++ handleText node ++ " as " ++ named asked
  | .treeFinishedAsOtherKind own asked =>
    "cannot finish a " ++ named own ++ " node as " ++ named asked
  | .unestablishedRelation kind node relation =>
    named kind ++ " node " ++ handleText node ++ " has no relation " ++ named relation
  | .treeLacksRelation kind relation => named kind ++ " node has no relation " ++ named relation
  | .noOpenSession => "no arena session is open"
  | .leftUnfinished count =>
    "session completed with " ++ toString count
      ++ " unfinished node(s); its nodes were discarded"
  | .unequalParts nodes args =>
    toString nodes ++ " related nodes but " ++ toString args ++ " relation args"
  | .unreadableCardinality text => "unrecognized cardinality " ++ named text
  | .alreadyRegistered kind => "kind " ++ named kind ++ " is already registered"
  | .unknownFormat path =>
    "cannot tell the schema format of " ++ named path ++ "; use .json, .yaml or .yml"
  | .invalidYaml => "invalid YAML schema"
  | .invalidJson => "invalid JSON schema"
  | .unreadableFile => "cannot read schema"
  | .raised text => text
  | .reported _ message _ => message

/-- Advice on how to avoid a fault. -/
def help? : Fault → Option String
  | .unregisteredKind _ known => some ("registered kinds: " ++ ", ".intercalate known)
  | .unacceptedAttr _ _ accepted => some ("accepted: " ++ ", ".intercalate accepted)
  | .alreadyFilled _ => some "use cardinality 'many' for relations that accumulate"
  | .reported _ _ help => help
  | _ => none

/-- What lies behind a fault that was only passed on. -/
inductive Cause where
  /-- An error of the code that uses the library, by its text. -/
  | raised (text : String)
  /-- A document that could not be read. -/
  | document

/-- What lies behind a fault, if anything does. -/
def cause? : Fault → Option Cause
  | .raised text => some (.raised text)
  | .invalidYaml | .invalidJson | .unreadableFile => some .document
  | _ => none

end Fault

/-! ### Errors -/

/-- A named input text. -/
structure SourceText where
  name : String
  text : String
  deriving DecidableEq, Inhabited

/-- A fault and where it arose. -/
structure BuildError where
  fault : Fault
  /-- The input range of the node at fault. -/
  span : Option Span := none
  /-- The input that the range refers to. -/
  source : Option SourceText := none
  deriving Inhabited

namespace BuildError

/-- A fault of a node with the given input range. -/
def located (fault : Fault) (span : Option Span) : BuildError := { fault, span }

instance : Coe Fault BuildError := ⟨fun fault => { fault }⟩

/-- The class of the fault. -/
def cls (e : BuildError) : FaultClass := e.fault.cls

/-- The message without a heading. -/
def message (e : BuildError) : String := e.fault.message

/-- The message under the heading of its class. -/
def display (e : BuildError) : String := e.cls.heading ++ ": " ++ e.message

/-- The code by which reports name the class of the fault. -/
def code (e : BuildError) : String := "arbor::" ++ e.cls.name

/-- Attaches the input that the range of the error refers to, instead of one attached before. -/
def withSource (e : BuildError) (source : SourceText) : BuildError :=
  { e with source := some source }

/-- A marked range of the input: what is said of it, its first position and its length. -/
structure Label where
  text : String
  start : UInt64
  length : Nat
  deriving DecidableEq

/-- The range that a report marks. A range means nothing without the input, so there is a label
only if the error has both; an empty range is marked as one position. -/
def label? (e : BuildError) : Option Label :=
  match e.source, e.span with
  | some _, some span => some ⟨e.message, span.start, max span.length 1⟩
  | _, _ => none

end BuildError

end TreeProtocol
