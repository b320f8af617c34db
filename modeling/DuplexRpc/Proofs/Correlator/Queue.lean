import DuplexRpc.Proofs.Correlator.Line

namespace DuplexRpc

namespace Outbound
variable {q after : Outbound}

-- What is taken in is queued last, and nothing leaves the queue.
def Enters (q after : Outbound) : Prop :=
  ∃ new, after.queued = q.queued ++ new ∧ after.accepted = q.accepted ++ new

theorem Enters.refl (q : Outbound) : Enters q q := ⟨[], by simp, by simp⟩

theorem Enters.trans {later : Outbound} (one : Enters q after) (two : Enters after later) : Enters q later := by
  obtain ⟨new, queued, accepted⟩ := one
  obtain ⟨newer, queued', accepted'⟩ := two
  exact ⟨new ++ newer, by simp [queued', queued], by simp [accepted', accepted]⟩

theorem Enters.accepted (enters : Enters q after) : q.accepted <+: after.accepted := by
  obtain ⟨new, _, accepted⟩ := enters
  exact ⟨new, accepted.symm⟩

theorem take_accepted {m : Message} (taken : q.take = some (m, after)) : after.accepted = q.accepted := by
  obtain ⟨rest, _, rfl⟩ := take_cases taken
  exact admitNext_accepted _

end Outbound

namespace Correlator
variable {c : Correlator} {move : Move}

end Correlator
end DuplexRpc
