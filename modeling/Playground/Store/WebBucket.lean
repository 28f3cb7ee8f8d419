import Playground.Store.Bucket
import Playground.Web

/-!
# Buckets on the web

Each object is sent to the address of its key below a base address.
-/

namespace Playground

/-- The address of a key. -/
def keyAddress (base key : String) : String := trimAddress base ++ "/" ++ key

/-- What an answer to an upload means. -/
def uploadResult (key : String) : Exchange → Except StorageError Unit
  | .failed cause => .error (.upload key cause)
  | .answered status _ _ =>
    if isSuccess status then .ok () else .error (.upload key (statusText status))

/-- A bucket on the web.  Its state is what was sent, newest first. -/
def webBucket (web : Web) (base : String) : Bucket (List Upload) where
  put key object depot :=
    match validateKey key with
    | .error e => (.error e, depot)
    | .ok () =>
      let upload : Upload := ⟨keyAddress base key, object.contentType, object.bytes⟩
      (uploadResult key (web.upload upload), { depot with bucket := upload :: depot.bucket })

end Playground
