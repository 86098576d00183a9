import Blockmark.Mention.UserSet

/-!
# Known users

Names and addresses of mentioned users. What is known about a user never changes; unknown users
are asked for in one request.

Main statement: `get?_insert`.
-/

namespace Blockmark.Mention

structure UserInfo where
  name : String
  email : Option String := none
  deriving DecidableEq, Repr, Inhabited

structure ResolveError where
  text : String
  deriving DecidableEq, Repr, Inhabited

def ResolveError.message (error : ResolveError) : String :=
  "Mention resolution failed: " ++ error.text

/-- Looks users up. The answer may leave ids out and hold users that were not asked for. -/
abbrev Resolver := UserSet → Except ResolveError (List (String × UserInfo))

/-- The users that are known, in the order in which they became known. -/
structure Cache where
  users : List (String × UserInfo) := []
  deriving DecidableEq, Repr, Inhabited

def placeholder (userId : String) : String :=
  "\x40[user:" ++ userId ++ "]"

namespace Cache

def get? (cache : Cache) (userId : String) : Option UserInfo :=
  (cache.users.find? (·.1 = userId)).map (·.2)

def size (cache : Cache) : Nat :=
  cache.users.length

def isEmpty (cache : Cache) : Bool :=
  cache.users.isEmpty

def insert (cache : Cache) (userId : String) (info : UserInfo) : Cache :=
  if (cache.get? userId).isSome then cache else ⟨cache.users ++ [(userId, info)]⟩

def insertAll (cache : Cache) (users : List (String × UserInfo)) : Cache :=
  users.foldl (fun cache user => cache.insert user.1 user.2) cache

def missing (cache : Cache) (wanted : UserSet) : UserSet :=
  wanted.filter fun userId => (cache.get? userId).isNone

/-- The request that is needed to know all wanted ids, if one is needed and can be made. -/
def request? (cache : Cache) (resolver : Option Resolver) (wanted : UserSet) : Option UserSet :=
  let missing := cache.missing wanted
  if missing.isEmpty || resolver.isNone then none else some missing

/-- Asks for the wanted ids that are not known, in one request. A missing resolver and one that
fails leave everything as it is. -/
def fill (cache : Cache) (resolver : Option Resolver) (wanted : UserSet) : Cache :=
  match cache.request? resolver wanted, resolver with
  | some missing, some resolver =>
    match resolver missing with
    | .ok users => cache.insertAll users
    | .error _ => cache
  | _, _ => cache

/-- The Markdown of a mention. Without `expand` nothing that is known is shown. -/
def render (cache : Cache) (expand : Bool) (userId : String) : String :=
  if !expand then placeholder userId
  else match cache.get? userId with
    | none => placeholder userId
    | some info =>
      let email := info.email.getD ""
      if !email.isEmpty then "[@" ++ info.name ++ "](mailto:" ++ email ++ ")"
      else if !info.name.isEmpty then "@" ++ info.name
      else placeholder userId

/-- What is known stays as it is; a new id gets the given information. -/
theorem get?_insert (cache : Cache) (userId other : String) (info : UserInfo) :
    (cache.insert userId info).get? other =
      if userId = other then some ((cache.get? userId).getD info) else cache.get? other := by
  unfold insert
  by_cases hknown : (cache.get? userId).isSome
  · by_cases h : userId = other
    · subst h
      obtain ⟨known, hknown⟩ := Option.isSome_iff_exists.1 hknown
      simp [hknown]
    · simp [hknown, h]
  · have hnone : cache.get? userId = none := by simpa using hknown
    rw [if_neg hknown, hnone]
    by_cases h : userId = other
    · subst h
      have : cache.users.find? (·.1 = userId) = none := by
        simpa [get?] using hnone
      simp [get?, List.find?_append, this]
    · simp [get?, List.find?_append, h]

end Cache

end Blockmark.Mention
