import Iceflow.Node.Repartitioning
import Iceflow.WordCount

/-! Names of different edges. A topic is the text of the application name and the
edge id put together and then parsed, so two ids may denote the same topic, or one
topic may extend the other by a component that names are built with. -/
namespace Iceflow

theorem append_singleton_prefix_iff {α : Type} {a b : List α} {x y : α} :
    a ++ [x] <+: b ++ [y] ↔ (a = b ∧ x = y) ∨ a ++ [x] <+: b := by
  rw [List.prefix_concat_iff, List.append_singleton_inj]

/-- The two kinds of names under a topic: subscriptions and publications of a
partition, and those of the backchannel. -/
inductive Channel where
  | partition (partitionNumber : UInt32)
  | backchannel

section
variable [Platform] {μ : Type}

namespace Channel

def name (topic : String) : Channel → Except Exception Name
  | .partition partitionNumber => partitionName topic partitionNumber
  | .backchannel => backchannelName topic

def component : Channel → Component
  | .partition partitionNumber => Platform.fromNumber partitionNumber.toUInt64
  | .backchannel => Platform.backchannel

theorem name_parsed {uri : String} {topic : Name} (parsed : Platform.nameOfUri uri = some topic)
    (channel : Channel) : channel.name uri = .ok (topic ++ [channel.component]) := by
  cases channel with
  | partition p => exact partitionName_parsed parsed p
  | backchannel => exact backchannelName_parsed parsed

end Channel

/-- No subscription of edge `i` matches a name that is published for edge `j`. -/
def Separated (applicationName i j : String) : Prop :=
  ∀ (s t : Channel) (subscribed published : Name),
    s.name (applicationName ++ "/" ++ i) = .ok subscribed →
      t.name (applicationName ++ "/" ++ j) = .ok published → ¬ subscribed <+: published

/-- At no node of the application a publication of edge `j` has an effect through a
subscription of edge `i`. -/
def NoEffect (μ : Type) (applicationName i j : String) : Prop :=
  ∀ (n₀ : IceFlow μ) (ops : List (Op μ)), n₀.Constructed →
    (n₀.run ops).syncPrefix = applicationName →
      ∀ handle subscription, (n₀.run ops).svsPubSub.subscriptions.find? handle = some subscription →
        (subscription.receiver = .consumer i ∨
          Channel.backchannel.name (applicationName ++ "/" ++ i) = .ok subscription.topic) →
        ∀ (subData : SubscriptionData) (t : Channel) (now : Int),
          t.name (applicationName ++ "/" ++ j) = .ok subData.name →
            (n₀.run ops).deliver handle subData now = (.ok (), n₀.run ops)

namespace Separated

theorem iff_topics {applicationName i j : String} {topicI topicJ : Name}
    (parsedI : Platform.nameOfUri (applicationName ++ "/" ++ i) = some topicI)
    (parsedJ : Platform.nameOfUri (applicationName ++ "/" ++ j) = some topicJ) :
    Separated applicationName i j ↔
      topicI ≠ topicJ ∧ ∀ s : Channel, ¬ topicI ++ [s.component] <+: topicJ := by
  constructor
  · intro separated
    have apart (s t : Channel) : ¬ topicI ++ [s.component] <+: topicJ ++ [t.component] :=
      separated s t _ _ (s.name_parsed parsedI) (t.name_parsed parsedJ)
    constructor
    · rintro rfl
      exact apart .backchannel .backchannel (List.prefix_refl _)
    · intro s inside
      exact apart s s (append_singleton_prefix_iff.mpr (Or.inr inside))
  · rintro ⟨different, outside⟩ s t subscribed published sub pub
    obtain rfl := Except.ok.inj ((s.name_parsed parsedI).symm.trans sub)
    obtain rfl := Except.ok.inj ((t.name_parsed parsedJ).symm.trans pub)
    rw [append_singleton_prefix_iff]
    rintro (⟨same, _⟩ | inside)
    · exact different same
    · exact outside s inside

theorem noEffect {applicationName i j : String} (separated : Separated applicationName i j) :
    NoEffect μ applicationName i j := by
  rintro n₀ ops constructed rfl handle subscription found ofI subData t now published
  have wf := constructed.run_wellFormed ops
  generalize n₀.run ops = n at *
  have subscribed : ∃ s : Channel, s.name (n.topicOf i) = .ok subscription.topic := by
    rcases ofI with received | backchannel
    · obtain ⟨topic, p, parsed, made⟩ :=
        wf.partition_topic _ (Registration.Registry.mem_of_find? found) i received
      refine ⟨.partition p, ?_⟩
      have made : subscription = IceflowConsumer.subscriptionFor topic i p := made
      rw [Channel.name_parsed parsed, made]
      rfl
    · exact ⟨.backchannel, backchannel⟩
  obtain ⟨s, subscribed⟩ := subscribed
  have unmatched := separated s t _ _ subscribed published
  simp only [IceFlow.deliver, found, if_neg unmatched]

theorem of_length_eq {applicationName i j : String} {topicI topicJ : Name}
    (parsedI : Platform.nameOfUri (applicationName ++ "/" ++ i) = some topicI)
    (parsedJ : Platform.nameOfUri (applicationName ++ "/" ++ j) = some topicJ)
    (different : topicI ≠ topicJ) (length : topicI.length = topicJ.length) :
    Separated applicationName i j := by
  rw [iff_topics parsedI parsedJ]
  refine ⟨different, fun s inside => ?_⟩
  have longer := inside.length_le
  rw [List.length_append, List.length_singleton] at longer
  omega

end Separated

/-- Two edges never mix exactly if their topics differ and the topic of the second
does not begin with a partition name or the backchannel name of the first. -/
theorem never_mix_iff {applicationName i j : String} {topicI topicJ : Name}
    (parsedI : Platform.nameOfUri (applicationName ++ "/" ++ i) = some topicI)
    (parsedJ : Platform.nameOfUri (applicationName ++ "/" ++ j) = some topicJ) :
    (Separated applicationName i j ∧ NoEffect μ applicationName i j) ↔
      topicI ≠ topicJ ∧
        (∀ p : UInt32, ¬ topicI ++ [Platform.fromNumber p.toUInt64] <+: topicJ) ∧
        ¬ topicI ++ [Platform.backchannel] <+: topicJ := by
  constructor
  · rintro ⟨separated, _⟩
    obtain ⟨different, outside⟩ := (Separated.iff_topics parsedI parsedJ).mp separated
    exact ⟨different, fun p => outside (.partition p), outside .backchannel⟩
  · rintro ⟨different, partitions, backchannel⟩
    have separated : Separated applicationName i j := by
      rw [Separated.iff_topics parsedI parsedJ]
      refine ⟨different, fun s => ?_⟩
      cases s with
      | partition p => exact partitions p
      | backchannel => exact backchannel
    exact ⟨separated, separated.noEffect⟩

end

section
open scoped Iceflow.Reference

def edgeJson (id target : String) : Json :=
  .object [("id", .string id), ("target", .string target), ("maxPartitions", .unsigned 1)]

def nodeJson (task : String) (downstream : List Json) : Json :=
  .object [("task", .string task), ("name", .string task), ("description", .string ""),
    ("executor", .string "container"),
    ("container", .object [("image", .string "image"),
      ("resources", .object [("cpu", .unsigned 1), ("memory", .unsigned 1)])]),
    ("scalingParameters", .object [("taskComplexity", .unsigned 1)]),
    ("downstream", .array downstream)]

/-- A document with the edges `a` and `a/backchannel`. -/
def nestedIds : Json :=
  .object [("applicationName", .string "app"),
    ("nodes", .array [nodeJson "1" [edgeJson "a" "2", edgeJson "a/backchannel" "2"],
      nodeJson "2" []])]

theorem never_mix_iff_siblings :
    (Separated "app" "a" "b" ∧ NoEffect Unit "app" "a" "b") ↔
      Reference.components ["app", "a"] ≠ Reference.components ["app", "b"] ∧
        (∀ p : UInt32, ¬ Reference.components ["app", "a"] ++ [Platform.fromNumber p.toUInt64] <+:
          Reference.components ["app", "b"]) ∧
        ¬ Reference.components ["app", "a"] ++ [Platform.backchannel] <+:
          Reference.components ["app", "b"] :=
  never_mix_iff (by decide) (by decide)

/-- Items of the second edge match the backchannel subscription of the first. -/
theorem nested_ids_mix :
    (∃ dagParser, DAGParser.fromJson nestedIds = .ok dagParser ∧
      dagParser.nodes.flatMap (fun node => node.downstream.map Edge.id) = ["a", "a/backchannel"]) ∧
      (∃ topicI topicJ, Platform.nameOfUri "app/a" = some topicI ∧
        Platform.nameOfUri "app/a/backchannel" = some topicJ ∧ topicI ≠ topicJ) ∧
      ¬ Separated "app" "a" "a/backchannel" := by
  refine ⟨⟨_, rfl, rfl⟩, ⟨_, _, rfl, rfl, by decide⟩, fun separated => ?_⟩
  exact separated .backchannel (.partition 0) _ _ rfl rfl (by decide)

end
end Iceflow
