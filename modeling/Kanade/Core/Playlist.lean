import Mathlib.Logic.Basic

/-!
# Kanade.Core.Playlist

The playlist model of `model.rs`.
-/

namespace Kanade

inductive MatchMode where
  | all
  | any
deriving DecidableEq, Repr

inductive SmartField where
  | title
  | artist
  | albumArtist
  | album
  | composer
  | genre
deriving DecidableEq, Repr

inductive SmartOperator where
  | equals
  | notEquals
  | contains
  | notContains
  | startsWith
  | endsWith
deriving DecidableEq, Repr

inductive SmartSort where
  | title
  | artist
  | album
  | genre
deriving DecidableEq, Repr

structure SmartCondition where
  field : SmartField
  op : SmartOperator
  value : String
deriving DecidableEq, Repr

structure SmartFilter where
  matchMode : MatchMode := .all
  conditions : List SmartCondition
deriving DecidableEq, Repr

inductive PlaylistKind where
  | normal
  | smart (filter : SmartFilter) (limit : Option UInt32) (sortBy : Option SmartSort)
deriving DecidableEq, Repr

def PlaylistKind.isNormal : PlaylistKind → Bool
  | .normal => true
  | .smart .. => false

structure Playlist where
  id : String
  name : String
  description : Option String
  kind : PlaylistKind
  createdAt : Int
  updatedAt : Int
deriving DecidableEq, Repr

end Kanade
