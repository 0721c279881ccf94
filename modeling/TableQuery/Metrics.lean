namespace TableQuery

structure Metrics where
  executed : UInt64
  failed : UInt64
  generated : UInt64
  returned : UInt64
deriving DecidableEq

namespace Metrics

def zero : Metrics := ⟨0, 0, 0, 0⟩

instance : Inhabited Metrics := ⟨zero⟩

def success (m : Metrics) (generated returned : Nat) : Metrics :=
  { m with
    executed := m.executed + 1
    generated := m.generated + UInt64.ofNat generated
    returned := m.returned + UInt64.ofNat returned }

def failure (m : Metrics) : Metrics := { m with failed := m.failed + 1 }

end Metrics

end TableQuery
