import Iceflow.Node
import Iceflow.ReferencePlatform

/-! The shipped word count application: text2lines feeds lines2words over the edge
t2l, lines2words feeds wordcount over the edge l2w. Concrete runs are runs of its
nodes on the reference platform. -/
namespace Iceflow.WordCount
open scoped Iceflow.Reference

def threshold : List (String × Json) := [("measurementsSaveThreshold", .unsigned 100)]

def task (task name description image : String) (memory : UInt32) (downstream : List Edge)
    (applicationConfiguration : List (String × Json)) : Node :=
  ⟨task, name, description, "container", ⟨image, "latest", ∅, ∅, ⟨1, memory⟩⟩, ⟨2⟩, downstream,
    applicationConfiguration⟩

def text2lines : Node :=
  task "1" "text2lines" "Splits text into lines." "text2lines-image" 1000000000
    [⟨"t2l", "2", 3, []⟩] (("sourceTextFileName", .string "sourcetext.txt") :: threshold)

def lines2words : Node :=
  task "2" "lines2words" "Splits lines into words." "lines2words-image" 1000000000
    [⟨"l2w", "3", 1, []⟩] threshold

def wordcount : Node :=
  task "3" "wordcount" "Counts the occurrences of words." "wordcount-image" 2000000000 [] threshold

def dag : DAGParser := ⟨"WordCount", [text2lines, lines2words, wordcount], none⟩

/-- Generators that always return zero, and callbacks without memory. -/
def environment (uuid : String) : Environment Unit :=
  ⟨uuid, fun _ => Stream'.const 0, fun _ => 0, ()⟩

/-- The node that a construction returns, with the random part of its prefix. -/
def instanceOf (dagParser : DAGParser) (name uuid : String)
    (builds : (IceFlow.construct dagParser name (environment uuid)).toOption.isSome = true) :
    IceFlow Unit :=
  (IceFlow.construct dagParser name (environment uuid)).toOption.get builds

theorem construct_instanceOf (dagParser : DAGParser) (name uuid : String)
    (builds : (IceFlow.construct dagParser name (environment uuid)).toOption.isSome = true) :
    IceFlow.construct dagParser name (environment uuid) =
      .ok (instanceOf dagParser name uuid builds) := by
  cases result : IceFlow.construct dagParser name (environment uuid) with
  | error e => simp [result, Except.toOption] at builds
  | ok n => simp [instanceOf, result, Except.toOption]

theorem constructed_instanceOf (dagParser : DAGParser) (name uuid : String)
    (builds : (IceFlow.construct dagParser name (environment uuid)).toOption.isSome = true) :
    (instanceOf dagParser name uuid builds).Constructed :=
  ⟨dagParser, name, environment uuid, construct_instanceOf dagParser name uuid builds⟩

def firstSource : IceFlow Unit := instanceOf dag "text2lines" "1" rfl

def secondSource : IceFlow Unit := instanceOf dag "text2lines" "2" rfl

def firstSplitter : IceFlow Unit := instanceOf dag "lines2words" "3" rfl

def secondSplitter : IceFlow Unit := instanceOf dag "lines2words" "4" rfl

theorem constructed_firstSource : firstSource.Constructed :=
  constructed_instanceOf dag "text2lines" "1" rfl

theorem constructed_secondSource : secondSource.Constructed :=
  constructed_instanceOf dag "text2lines" "2" rfl

theorem constructed_firstSplitter : firstSplitter.Constructed :=
  constructed_instanceOf dag "lines2words" "3" rfl

theorem constructed_secondSplitter : secondSplitter.Constructed :=
  constructed_instanceOf dag "lines2words" "4" rfl

/-- An instance of lines2words that reads partition 0 of its upstream edge. -/
def reader : IceFlow Unit :=
  (instanceOf dag "lines2words" "1" rfl).run [.call (.repartitionConsumer "t2l" [0])]

end Iceflow.WordCount
