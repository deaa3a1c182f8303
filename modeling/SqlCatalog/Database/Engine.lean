import SqlCatalog.Database.Connection
/-!
The database as an engine, and the options that a connection is opened with.
-/
namespace SqlCatalog.Database

-- How a database is opened. Journalling and waiting for locks change no answer.
structure Options where
  path : String
  cacheCapacity : Nat
  writeAheadLog : Bool
  busyTimeout : Option Nat
deriving DecidableEq

namespace Options

def forPath (path : String) : Options := ⟨path, 100, false, none⟩

inductive Setting where
  | cacheCapacity (capacity : Nat)
  | writeAheadLog (on : Bool)
  | busyTimeout (milliseconds : Nat)
deriving DecidableEq

def set (o : Options) : Setting → Options
  | .cacheCapacity capacity => { o with cacheCapacity := capacity }
  | .writeAheadLog on => { o with writeAheadLog := on }
  | .busyTimeout milliseconds => { o with busyTimeout := some milliseconds }

end Options

abbrev Handle : Type := Attached Connection

namespace Handle

-- Opens an empty database; at least one statement has to be kept prepared.
def open? (o : Options) : Except Failure Handle :=
  if o.cacheCapacity = 0 then .error (.setup .noCacheSlots)
  else .ok ⟨.start, o.cacheCapacity⟩

def executeBatch (sql : String) : Action Handle Unit :=
  Attached.onConnection fun c => Connection.driver.runText c sql

end Handle

def engine : Engine Handle := Connection.driver.engine

end SqlCatalog.Database
