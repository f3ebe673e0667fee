import PageLookup.Store.Basic

/-!
# Histories of a store

A store is written to by inserts and clears. What it holds afterwards can be
told from the writes alone, looking back from the latest: an insert under a key
decides what the key holds, and nothing shows from before a clear.
-/

set_option autoImplicit false

namespace PageLookup

inductive Write where
  | insert (language platform name text : String)
  | clear
  deriving DecidableEq, Repr

namespace Write

def apply (s : Store) : Write → Store
  | .insert language platform name text => s.insert language platform name text
  | .clear => .empty

def applyAll (s : Store) (writes : List Write) : Store := writes.foldl apply s

def isUnder (language : String) : Write → Bool
  | .insert l _ _ _ => l == language
  | .clear => false

def isInto (language platform : String) : Write → Bool
  | .insert l p _ _ => l == language && p == platform
  | .clear => false

def text? (language platform name : String) : Write → Option String
  | .insert l p n t => if l = language ∧ p = platform ∧ n = name then some t else none
  | .clear => none

def sinceClear (writes : List Write) : List Write := writes.reverse.takeWhile (· != .clear)

/-- The text that writes, the latest first, leave under a key that held `start`. -/
def textLeft (language platform name : String) (start : Option String) :
    List Write → Option String
  | [] => start
  | .clear :: _ => none
  | w :: earlier =>
    (w.text? language platform name).or (textLeft language platform name start earlier)

/-- Whether writes, the latest first, leave a level that they make where `p`
holds, and that was there before them if `start` holds. -/
def levelLeft (p : Write → Bool) (start : Bool) : List Write → Bool
  | [] => start
  | .clear :: _ => false
  | w :: earlier => p w || levelLeft p start earlier

end Write

end PageLookup
