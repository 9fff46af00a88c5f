/-!
# Options of a session
-/

namespace ClasspathLookup

inductive ScanPolicy where
  /-- Stop at the first definitive answer that is better than the suggestion. -/
  | firstDefinitive
  /-- Ask every location and take the earliest of the best answers. -/
  | exhaustive
deriving DecidableEq, Repr

structure Options where
  scanPolicy : ScanPolicy := .firstDefinitive
  /-- Whether types declared in files named after other types are looked for. -/
  secondary : Bool := true
  sourceExtensions : List String := ["java"]
  archiveExtensions : List String := ["jar", "zip"]
deriving DecidableEq, Repr

end ClasspathLookup
