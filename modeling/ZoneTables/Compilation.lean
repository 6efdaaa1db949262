import ZoneTables.Database.OfSource
import ZoneTables.Document.OfDatabase
import ZoneTables.Source.Reader

/-!
# Compilation

From source texts to the document: reading, making the database, measuring the
buffer and making the tables.  The first stage that fails ends the work.
-/

namespace ZoneTables

structure CompileOptions where
  options : Options
  /-- The tag of the source. -/
  version : String
  /-- The capacity of the buffer that the tables are for. -/
  maxTransitions : Nat
  /-- Whether a buffer that is too small is only warned of. -/
  ignoreTooLarge : Bool

namespace CompileOptions

def usualCapacity : Nat := 8

end CompileOptions

inductive CompileError where
  | source (fault : SourceError)
  | validation (fault : ValidationError)
  | buffer (fault : BufferError)
  | coding (fault : CodingError)
deriving DecidableEq

namespace CompileError

def message : CompileError → String
  | source fault => fault.message
  | validation fault => fault.message
  | buffer fault => fault.message
  | coding fault => fault.message

end CompileError

/-- The number of zones and links that each stage handed on; of zones only,
where the buffer is measured. -/
structure StageCounts where
  read : Nat
  made : Nat
  measured : Nat
  assembled : Nat
deriving DecidableEq

structure Compiled where
  document : Document
  counts : SourceCounts
  stages : StageCounts

structure Compilation where
  log : Log
  result : Except CompileError Compiled

namespace Compilation

def failed (log : Log) (fault : CompileError) : Compilation :=
  ⟨log, .error fault⟩

def ofSource (o : CompileOptions) (log : Log) (source : Source) :
    Compilation :=
  let log := log ++ [source.summary]
  let making := Database.ofSource o.options source
  let log := log ++ making.log
  match making.result with
  | .error fault => failed log (.validation fault)
  | .ok db =>
    let measured := db.bufferSizes db.window
    let log := log ++ measured.log
    match measured.result with
    | .error fault => failed log (.buffer fault)
    | .ok sizes =>
      let checked := sizes.check o.maxTransitions o.ignoreTooLarge
      let log := log ++ checked.log
      match checked.result with
      | .error fault => failed log (.buffer fault)
      | .ok () =>
        let tables := Document.ofDatabase db sizes o.version
        let log := log ++ tables.log
        match tables.result with
        | .error fault => failed log (.coding fault)
        | .ok document =>
          { log
            result := .ok {
              document
              counts := source.counts
              stages := {
                read := source.zones.size + source.links.size
                made := db.zones.size + db.links.size
                measured := sizes.zones.size
                assembled := document.zones.size + document.links.size } } }

end Compilation

def compile (o : CompileOptions) (texts : List SourceText) : Compilation :=
  let reading := Source.empty.readTexts [] texts
  match reading.fault with
  | some fault => .failed reading.log (.source fault)
  | none => .ofSource o reading.log reading.source

end ZoneTables
