/-
`common/errno.h`: the return codes, as the `int` values the functions
of the repository return.
-/
namespace CephInC

def CCEPH_OK : Int := 0
def CCEPH_ERR_UNKNOWN : Int := -1000
def CCEPH_ERR_CONN_NOT_FOUND : Int := -1001
def CCEPH_ERR_CONN_CLOSED : Int := -1002
def CCEPH_ERR_WRITE_CONN_ERR : Int := -1003
def CCEPH_ERR_UNKNOWN_OP : Int := -1004
def CCEPH_ERR_NOT_ENOUGH_SERVER : Int := -1005
def CCEPH_ERR_WRONG_CLIENT_ID : Int := -1006
def CCEPH_ERR_NO_ENOUGH_MEM : Int := -1007
def CCEPH_ERR_COLL_ALREADY_EXIST : Int := -1008
def CCEPH_ERR_COLL_NOT_EXIST : Int := -1009
def CCEPH_ERR_OBJECT_ALREADY_EXIST : Int := -1010
def CCEPH_ERR_OBJECT_NOT_EXIST : Int := -1011
def CCEPH_ERR_MAP_NODE_ALREADY_EXIST : Int := -1012
def CCEPH_ERR_MAP_NODE_NOT_EXIST : Int := -1013
def CCEPH_ERR_UNKNOWN_OS_OP : Int := -1014
def CCEPH_ERR_BUFFER_END : Int := -1015

/-- `cceph_errno_str`. -/
def errnoStr (errNo : Int) : String :=
  if errNo = CCEPH_OK then "OK"
  else if errNo = CCEPH_ERR_CONN_NOT_FOUND then "ConnectionNotFound"
  else if errNo = CCEPH_ERR_CONN_CLOSED then "ConnectionClosed"
  else if errNo = CCEPH_ERR_WRITE_CONN_ERR then "WriteConnectionError"
  else if errNo = CCEPH_ERR_UNKNOWN_OP then "UnknownOp"
  else if errNo = CCEPH_ERR_NOT_ENOUGH_SERVER then "NotEnoughServer"
  else if errNo = CCEPH_ERR_WRONG_CLIENT_ID then "WrongClientID"
  else if errNo = CCEPH_ERR_NO_ENOUGH_MEM then "NoEnoughMemory"
  else if errNo = CCEPH_ERR_COLL_ALREADY_EXIST then "CollectionAlreadyExist"
  else if errNo = CCEPH_ERR_COLL_NOT_EXIST then "CollectionNotExist"
  else if errNo = CCEPH_ERR_OBJECT_ALREADY_EXIST then "ObjectAlreadyExist"
  else if errNo = CCEPH_ERR_OBJECT_NOT_EXIST then "ObjectNotExist"
  else if errNo = CCEPH_ERR_MAP_NODE_ALREADY_EXIST then "MapNodeAlreadyExist"
  else if errNo = CCEPH_ERR_MAP_NODE_NOT_EXIST then "MapNodeNotExist"
  else if errNo = CCEPH_ERR_UNKNOWN_OS_OP then "UnknownOsOp"
  else "UnknowError"

end CephInC
