/-! The error codes of the wire protocol that a client may see. -/
namespace LogConsumer

inductive ErrorCode
  | noError
  | unknownServerError
  | offsetOutOfRange
  | corruptMessage
  | unknownTopicOrPartition
  | leaderNotAvailable
  | notLeaderOrFollower
  | requestTimedOut
  | brokerNotAvailable
  | networkException
  | coordinatorLoadInProgress
  | coordinatorNotAvailable
  | notCoordinator
  | illegalGeneration
  | unknownMemberId
  | rebalanceInProgress
  | groupAuthorizationFailed
  | unsupportedVersion
  | invalidConfig
  | invalidRequest
  | offsetNotAvailable
deriving DecidableEq

namespace ErrorCode

def all : List ErrorCode :=
  [.noError, .unknownServerError, .offsetOutOfRange, .corruptMessage, .unknownTopicOrPartition,
    .leaderNotAvailable, .notLeaderOrFollower, .requestTimedOut, .brokerNotAvailable,
    .networkException, .coordinatorLoadInProgress, .coordinatorNotAvailable, .notCoordinator,
    .illegalGeneration, .unknownMemberId, .rebalanceInProgress, .groupAuthorizationFailed,
    .unsupportedVersion, .invalidConfig, .invalidRequest, .offsetNotAvailable]

def name : ErrorCode → String
  | noError => "None"
  | unknownServerError => "UnknownServerError"
  | offsetOutOfRange => "OffsetOutOfRange"
  | corruptMessage => "CorruptMessage"
  | unknownTopicOrPartition => "UnknownTopicOrPartition"
  | leaderNotAvailable => "LeaderNotAvailable"
  | notLeaderOrFollower => "NotLeaderOrFollower"
  | requestTimedOut => "RequestTimedOut"
  | brokerNotAvailable => "BrokerNotAvailable"
  | networkException => "NetworkException"
  | coordinatorLoadInProgress => "CoordinatorLoadInProgress"
  | coordinatorNotAvailable => "CoordinatorNotAvailable"
  | notCoordinator => "NotCoordinator"
  | illegalGeneration => "IllegalGeneration"
  | unknownMemberId => "UnknownMemberId"
  | rebalanceInProgress => "RebalanceInProgress"
  | groupAuthorizationFailed => "GroupAuthorizationFailed"
  | unsupportedVersion => "UnsupportedVersion"
  | invalidConfig => "InvalidConfig"
  | invalidRequest => "InvalidRequest"
  | offsetNotAvailable => "OffsetNotAvailable"

def value : ErrorCode → Int
  | noError => 0
  | unknownServerError => -1
  | offsetOutOfRange => 1
  | corruptMessage => 2
  | unknownTopicOrPartition => 3
  | leaderNotAvailable => 5
  | notLeaderOrFollower => 6
  | requestTimedOut => 7
  | brokerNotAvailable => 8
  | networkException => 13
  | coordinatorLoadInProgress => 14
  | coordinatorNotAvailable => 15
  | notCoordinator => 16
  | illegalGeneration => 22
  | unknownMemberId => 25
  | rebalanceInProgress => 27
  | groupAuthorizationFailed => 30
  | unsupportedVersion => 35
  | invalidConfig => 40
  | invalidRequest => 42
  | offsetNotAvailable => 78

def isRetriable : ErrorCode → Bool
  | corruptMessage | unknownTopicOrPartition | leaderNotAvailable | notLeaderOrFollower
  | requestTimedOut | networkException | coordinatorLoadInProgress | coordinatorNotAvailable
  | notCoordinator | offsetNotAvailable => true
  | _ => false

def ofName? (s : String) : Option ErrorCode := all.find? (·.name == s)

end ErrorCode

end LogConsumer
