import Mathlib.Data.List.Basic
import Iceflow.StringMap

/-! Measurements of a node: entries are collected in memory and written to a numbered
CSV file when there are enough of them. Whether a file can be opened is an argument. -/
namespace Iceflow

structure Entry where
  interest : String
  entryname : String
  timestamp : UInt64
  size : UInt64
deriving DecidableEq

/-- A file that was opened for writing, with the rows meant for it. -/
structure Part where
  fileName : String
  opened : Bool
  rows : List Entry

/-- Directories are given by the names on the way from the root, files by the paths they
are opened with. The parts are all attempts to write so far, in order; no function reads
them. -/
structure Disk where
  workingDirectory : List String
  directories : List (List String)
  files : StringMap String
  parts : List Part

/-- A stream that failed to open writes nothing; one that is open truncates its file. -/
def Disk.write (disk : Disk) (opens : Bool) (fileName contents : String) (rows : List Entry) :
    Disk :=
  { disk with
    files := if opens then disk.files.insert fileName contents else disk.files
    parts := disk.parts ++ [⟨fileName, opens, rows⟩] }

/-- Where a name leads from a directory, if that is a directory again. -/
def Disk.enter (disk : Disk) (here : List String) (name : String) : Option (List String) :=
  if name = "" ∨ name = "." then some here
  else if name = ".." then some here.dropLast
  else if here ++ [name] ∈ disk.directories then some (here ++ [name])
  else none

/-- The names that slashes separate in a path. -/
def pathNames (path : String) : List String := (path.toList.splitOn '/').map String.ofList

/-- The directory of the file exists; without it the file cannot be opened. -/
def Disk.HasDirectory (disk : Disk) (path : String) : Prop :=
  ((pathNames path).dropLast.foldlM disk.enter disk.workingDirectory).isSome = true

structure Measurement where
  fileName : String
  nodeName : String
  measurementId : String
  observedObject : String
  /-- An `int`, so that the step from 2 ^ 31 - 1 is undefined. -/
  fileCount : Int32
  entries : List Entry
  saveThreshold : UInt64

namespace Measurement

def createMeasurementFolder (creates : Bool) (disk : Disk) : Disk :=
  let folderPath := disk.workingDirectory ++ ["measurements"]
  if folderPath ∈ disk.directories ∨ "measurements" ∈ disk.files then disk
  else if creates then { disk with directories := disk.directories ++ [folderPath] }
  else disk

/-- The constructor. That the folder cannot be created is printed only. -/
def construct (measurementId nodeName : String) (saveThreshold : UInt64)
    (observedObject : String) (creates : Bool) (disk : Disk) : Measurement × Disk :=
  ({ fileName := "", nodeName, measurementId, observedObject, fileCount := 0, entries := [],
     saveThreshold },
    createMeasurementFolder creates disk)

def header : String := "nodeName,observedObject,interest,entryname,timestamp,dataSize\n"

def lineToAdd (nodeName observedObject : String) (e : Entry) : String :=
  nodeName ++ "," ++ observedObject ++ "," ++ e.interest ++ "," ++ e.entryname ++ "," ++
    toString e.timestamp ++ "," ++ toString e.size ++ "\n"

def contents (nodeName observedObject : String) (entries : List Entry) : String :=
  header ++ String.join (entries.map (lineToAdd nodeName observedObject))

def partName (measurementId nodeName observedObject : String) (number : Int) : String :=
  "measurements/" ++ measurementId ++ "_" ++ nodeName ++ "_" ++ observedObject ++ "_part_" ++
    toString number ++ ".csv"

/-- The state of the stream is not looked at: the entries go whether they were written
or not. -/
def recordToFile (opens : Bool) (m : Measurement) (disk : Disk) : Measurement × Disk :=
  let fileCount := m.fileCount + 1
  let fileName := partName m.measurementId m.nodeName m.observedObject fileCount.toInt
  ({ m with fileCount, fileName, entries := [] },
    disk.write opens fileName (contents m.nodeName m.observedObject m.entries) m.entries)

def setField (interestName entryName : String) (dataSize currentTimestamp : UInt64)
    (opens : Bool) (m : Measurement) (disk : Disk) : Measurement × Disk :=
  let entry := ⟨interestName, entryName, currentTimestamp, dataSize⟩
  let m := { m with entries := m.entries ++ [entry] }
  if m.saveThreshold.toNat ≤ m.entries.length then m.recordToFile opens disk else (m, disk)

/-- A call with the reading of the clock and with what an opening of the file gives. -/
inductive Call where
  | setField (interestName entryName : String) (dataSize currentTimestamp : UInt64) (opens : Bool)
  | recordToFile (opens : Bool)

def Call.opens : Call → Bool
  | .setField _ _ _ _ opens => opens
  | .recordToFile opens => opens

def Call.entry : Call → Option Entry
  | .setField interestName entryName dataSize currentTimestamp _ =>
    some ⟨interestName, entryName, currentTimestamp, dataSize⟩
  | .recordToFile _ => none

structure Recording where
  measurement : Measurement
  disk : Disk
  passed : List Entry

def Recording.step (s : Recording) (call : Call) : Recording :=
  let (measurement, disk) := match call with
    | .setField interestName entryName dataSize currentTimestamp opens =>
      s.measurement.setField interestName entryName dataSize currentTimestamp opens s.disk
    | .recordToFile opens => s.measurement.recordToFile opens s.disk
  ⟨measurement, disk, s.passed ++ call.entry.toList⟩

def Recording.start (measurementId nodeName : String) (saveThreshold : UInt64)
    (observedObject : String) (creates : Bool) (disk : Disk) : Recording :=
  let (measurement, disk) := construct measurementId nodeName saveThreshold observedObject creates
    { disk with parts := [] }
  ⟨measurement, disk, []⟩

end Measurement
end Iceflow
