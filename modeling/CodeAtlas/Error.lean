/-!
# CodeAtlas.Error

What can go wrong, with the message that is shown for it.

1. an operation on the store that failed because the store could not be reached, or
   because of another writer, may succeed when it is tried again;
2. a configuration that cannot be used is reported at once.
-/

namespace CodeAtlas

inductive Error where
  /-- A source that cannot be read. -/
  | parse (detail : String)
  /-- A reference with several possible targets. -/
  | ambiguous (detail : String)
  /-- The store cannot be reached. -/
  | storeUnavailable (detail : String)
  /-- Another writer is at work. -/
  | storeConflict (detail : String)
  /-- Any other failure of the store. -/
  | storage (detail : String)
  | invalidNodeKind (text : String)
  | invalidRelationship (text : String)
  | invalidConfidence (text : String)
  | notFound (what : String)
  | config (detail : String)
  | lockPoisoned (detail : String)
  | internal (detail : String)
  /-- A failure of the file system. -/
  | io (detail : String)
  /-- A text that is not JSON, or JSON of the wrong shape. -/
  | json (detail : String)
deriving DecidableEq, Inhabited, Repr

namespace Error

/-- The message of an error. -/
def message : Error → String
  | parse d => "Parse error: " ++ d
  | ambiguous d => "Ambiguous reference: " ++ d
  | storeUnavailable d => "Store unavailable: " ++ d
  | storeConflict d => "Store conflict: " ++ d
  | storage d => "Storage error: " ++ d
  | invalidNodeKind t => "Invalid node kind: " ++ t
  | invalidRelationship t => "Invalid relationship type: " ++ t
  | invalidConfidence t => "Invalid confidence: " ++ t
  | notFound w => "Not found: " ++ w
  | config d => "Configuration error: " ++ d
  | lockPoisoned d => "Lock poisoned: " ++ d
  | internal d => "Internal error: " ++ d
  | io d => "IO error: " ++ d
  | json d => "JSON error: " ++ d

/-- Whether the same operation may succeed when it is tried again. -/
def isRetryable : Error → Bool
  | storeUnavailable _ | storeConflict _ => true
  | _ => false

/-- Whether the error is reported at once, without another attempt. -/
def isFatal : Error → Bool
  | config _ => true
  | _ => false

end Error

end CodeAtlas
