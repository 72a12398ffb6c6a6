import Uavcan.DynamicNodeId.Refinement
import Uavcan.DynamicNodeId.ServerMoves

/-!
# What the handlers do to the log

Only two handlers change a log: `appendLog`, which extends it, and `handleAppendEntriesRequest`, which may cut it.
-/

namespace Uavcan

open PersistentState

/-! ## Actions -/

/-- What an action does to the server at which it happens. -/
inductive Handles (cfg : ClusterConfig) (c : Cluster) (s : NodeID) (r : RaftCore) : Action → Prop
  | calm {a : Action} (calm : RaftCore.Calm (c.server s) r) : Handles cfg c s r a
  | commit {a : Action} {x : RaftCore} (calm : RaftCore.Calm (c.server s) x) (eq : r = x.propagateCommitIndex) :
      Handles cfg c s r a
  | accept {src : NodeID} {call : ServiceCallID} {req : AppendEntriesRequest} {env : Env} {x : RaftCore}
      (calm : RaftCore.Calm (c.server s) x) (follower : x.serverState = .follower)
      (eq : r = (x.acceptAppendEntries (c.fresh env) req).1) :
      Handles cfg c s r (.deliverAppendEntries src call req env)
  | append {uniqueId : UniqueID} {nodeId : NodeID} {env : Env}
      (eq : r = (c.server s).appendLog cfg.dsdl (c.fresh env) uniqueId nodeId) :
      Handles cfg c s r (.appendLog s uniqueId nodeId env)
  | restart {size : ℕ} {env : Env}
      (started : RaftCore.init cfg.dsdl env s (c.server s).persistent.storage size = .ok r) :
      Handles cfg c s r (.restart s size env)

theorem Sim.handles {cfg : ClusterConfig} {retaining : Prop} {c : Cluster} {A : Abstract} {a : Action} {s : NodeID}
    {r : RaftCore} {replies : List Message} (sim : Sim cfg retaining c A)
    (run : c.handle cfg a = some (s, r, replies)) : s ∈ cfg.members ∧ Handles cfg c s r a := by
  unfold Cluster.handle at run
  split at run <;> simp only [Option.ite_none_right_eq_some] at run <;> obtain ⟨enabled, run⟩ := run
  case h_1 s env =>
    cases run
    obtain ⟨x, calm, same | moved⟩ := RaftCore.handleTimerEvent_split cfg.dsdl (c.fresh env) (c.server s)
    · exact ⟨enabled, .calm (same ▸ calm)⟩
    · exact ⟨enabled, .commit calm moved⟩
  case h_2 s =>
    cases run
    exact ⟨enabled.1, .calm (c.server s).calm_handleDiscoveryTimer⟩
  case h_3 src call req env =>
    cases run
    exact ⟨enabled.2, .calm (RaftCore.calm_handleRequestVoteRequest cfg.dsdl (c.fresh env) _ src req)⟩
  case h_4 dst call resp env =>
    cases run
    exact ⟨enabled.2.1, .calm (RaftCore.calm_handleRequestVoteResponse cfg.dsdl (c.fresh env) enabled.2.2 resp)⟩
  case h_5 src call req env =>
    cases run
    have unicast := cfg.unicast src (sim.messages _ enabled.1).1
    obtain ⟨x, calm, same | ⟨follower, accepted⟩⟩ := RaftCore.handleAppendEntriesRequest_split cfg.dsdl (c.fresh env)
      (c.server call.serverNodeID) unicast req
    · exact ⟨enabled.2, .calm (same ▸ calm)⟩
    · exact ⟨enabled.2, .accept calm follower accepted⟩
  case h_6 dst call resp env =>
    cases run
    exact ⟨enabled.2.1, .calm (RaftCore.calm_handleAppendEntriesResponse cfg.dsdl (c.fresh env) _ call resp)⟩
  case h_7 src dst msg =>
    cases run
    exact ⟨enabled.2, .calm ((c.server s).calm_handleDiscovery msg)⟩
  case h_8 s call =>
    cases run
    exact ⟨enabled, .calm ((c.server s).calm_endCall call)⟩
  case h_9 s uniqueId nodeId env =>
    cases run
    exact ⟨enabled.1, .append rfl⟩
  case h_10 s size env =>
    split at run
    · cases run
    · rename_i started
      cases run
      exact ⟨enabled.1, .restart started⟩

end Uavcan
